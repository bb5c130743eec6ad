import Mathlib.Tactic
import Mathlib.Data.ZMod.Basic

/-!
# One's-complement sums

A byte string is summed as 16-bit words, the first byte of a word being the low one; a last
byte without a partner is the low byte of its word.  Sums are folded into 16 bits by adding
the carries back, which is arithmetic modulo `2 ^ 16 - 1` with two representations of zero.

**Results**
- `wordSum_append`: a string that begins at an odd offset counts 256 times.
- `wordSumBe_eq`: reading the words in the other byte order multiplies the sum by 256.
- `foldOnce_cast`: adding the carry back once is exact unless it carries again.
-/

namespace Warp17
namespace OnesComplement

/-- The sum of the 16-bit words of a byte string, low byte first. -/
def wordSum : List UInt8 → Nat
  | [] => 0
  | [b] => b.toNat
  | b :: b' :: rest => b.toNat + 256 * b'.toNat + wordSum rest

/-- The sum of the 16-bit words of a byte string, high byte first. -/
def wordSumBe : List UInt8 → Nat
  | [] => 0
  | [b] => 256 * b.toNat
  | b :: b' :: rest => 256 * b.toNat + b'.toNat + wordSumBe rest

/-- A sum with all its carries added back. -/
def folded (s : Nat) : Nat :=
  if s = 0 then 0 else (s - 1) % 65535 + 1

/-- A sum with its carry added back once, kept in 16 bits. -/
def foldOnce (s : Nat) : Nat :=
  (s / 65536 + s % 65536) % 65536

/-- One's-complement arithmetic. -/
abbrev Ones := ZMod 65535

theorem ones_sq :
    (256 : Ones) * 256 = 1 := by
  decide

theorem ones_word :
    (65536 : Ones) = 1 := by
  decide

theorem ones_zero :
    (65535 : Ones) = 0 := by
  decide

section Folding

theorem folded_le
    (s : Nat) :
    folded s ≤ 65535 := by
  unfold folded
  split <;> omega

theorem folded_cast
    (s : Nat) :
    ((folded s : Nat) : Ones) = (s : Ones) := by
  rw [ZMod.natCast_eq_natCast_iff, Nat.ModEq, folded]
  split <;> omega

/-- Two folded sums that are not zero are equal when they are congruent. -/
theorem eq_of_cast
    {a b : Nat}
    (ha : 0 < a)
    (hb : 0 < b)
    (ha' : a ≤ 65535)
    (hb' : b ≤ 65535)
    (h : (a : Ones) = (b : Ones)) :
    a = b := by
  rw [ZMod.natCast_eq_natCast_iff, Nat.ModEq] at h
  omega

/-- Adding the carry back once loses one exactly when that carries again. -/
theorem foldOnce_cast
    {s : Nat}
    (hs : s < 2 ^ 32) :
    ((foldOnce s : Nat) : Ones) =
      (s : Ones) - if s / 65536 + s % 65536 < 65536 then 0 else 1 := by
  have hdecomp : (s : Ones) = ((s / 65536 + s % 65536 : Nat) : Ones) := by
    conv_lhs => rw [← Nat.div_add_mod s 65536]
    push_cast
    rw [ones_word, one_mul]
  unfold foldOnce
  split
  · rename_i hfits
    rw [Nat.mod_eq_of_lt hfits, sub_zero, hdecomp]
  · rename_i hcarry
    have hsub : (s / 65536 + s % 65536) % 65536 + 65536 = s / 65536 + s % 65536 := by
      omega
    have hcast := congrArg (fun n : Nat => (n : Ones)) hsub
    simp only [Nat.cast_add] at hcast
    rw [hdecomp, Nat.cast_add, ← hcast]
    push_cast
    rw [ones_word, add_sub_cancel_right]

end Folding

section Words

theorem wordSum_cons_cons
    (b b' : UInt8) (rest : List UInt8) :
    wordSum (b :: b' :: rest) = b.toNat + 256 * b'.toNat + wordSum rest := by
  rfl

theorem wordSum_le
    (bs : List UInt8) :
    wordSum bs ≤ 65535 * bs.length := by
  induction bs using wordSum.induct with
  | case1 =>
      simp [wordSum]
  | case2 b =>
      have hb := b.toNat_lt
      simp only [wordSum, List.length_singleton]
      omega
  | case3 b b' rest ih =>
      have hb := b.toNat_lt
      have hb' := b'.toNat_lt
      simp only [wordSum, List.length_cons]
      omega

/-- The weight of a byte string that begins at an odd or an even offset. -/
def atOffset (odd : Bool) (s : Ones) : Ones :=
  if odd then 256 * s else s

theorem atOffset_add
    (odd : Bool) (s t : Ones) :
    atOffset odd (s + t) = atOffset odd s + atOffset odd t := by
  unfold atOffset
  split
  · ring
  · rfl

theorem atOffset_flip
    (odd : Bool) (s : Ones) :
    atOffset odd (256 * s) = atOffset (!odd) s := by
  cases odd with
  | false =>
      rfl
  | true =>
      simp only [atOffset, if_true, Bool.not_true, Bool.false_eq_true, if_false]
      rw [← mul_assoc, ones_sq, one_mul]

/-- Whether a byte string has an odd length. -/
def oddLength (bs : List UInt8) : Bool :=
  decide (bs.length % 2 = 1)

/-- One byte in front: every byte of the rest changes its place in its word. -/
theorem wordSum_cons
    (x : UInt8) (b : List UInt8) :
    ((wordSum (x :: b) : Nat) : Ones) = (x.toNat : Ones) + 256 * (wordSum b : Ones) := by
  induction b using wordSum.induct generalizing x with
  | case1 =>
      simp [wordSum]
  | case2 y =>
      simp [wordSum]
  | case3 y y' rest ih =>
      rw [wordSum_cons_cons, wordSum_cons_cons]
      push_cast
      rw [ih y']
      have hsquare : (256 : Ones) * (256 * (y'.toNat : Ones)) = (y'.toNat : Ones) := by
        rw [← mul_assoc, ones_sq, one_mul]
      rw [mul_add, mul_add, hsquare]
      ring

/-- What follows a byte string begins at the offset of its length. -/
theorem wordSum_append
    (a b : List UInt8) :
    ((wordSum (a ++ b) : Nat) : Ones) =
      (wordSum a : Ones) + atOffset (oddLength a) (wordSum b : Ones) := by
  induction a using wordSum.induct with
  | case1 =>
      simp [wordSum, oddLength, atOffset]
  | case2 x =>
      have hodd : oddLength [x] = true := rfl
      rw [hodd]
      simp only [atOffset, if_true, wordSum, List.singleton_append]
      exact wordSum_cons x b
  | case3 x y rest ih =>
      have hodd : oddLength (x :: y :: rest) = oddLength rest := by
        simp only [oddLength, List.length_cons]
        congr 1
        rw [eq_iff_iff]
        omega
      rw [hodd, List.cons_append, List.cons_append, wordSum_cons_cons, wordSum_cons_cons]
      push_cast
      rw [ih]
      ring

/-- The other byte order. -/
theorem wordSumBe_eq
    (bs : List UInt8) :
    ((wordSumBe bs : Nat) : Ones) = 256 * (wordSum bs : Ones) := by
  induction bs using wordSum.induct with
  | case1 =>
      simp [wordSum, wordSumBe]
  | case2 b =>
      simp [wordSum, wordSumBe]
  | case3 b b' rest ih =>
      rw [wordSumBe, wordSum_cons_cons]
      push_cast
      rw [ih, mul_add, mul_add, ← mul_assoc 256 256, ones_sq]
      ring

theorem wordSumBe_eq_zero
    {bs : List UInt8} :
    wordSumBe bs = 0 ↔ wordSum bs = 0 := by
  induction bs using wordSum.induct with
  | case1 =>
      simp [wordSum, wordSumBe]
  | case2 b =>
      simp [wordSum, wordSumBe]
  | case3 b b' rest ih =>
      rw [wordSumBe, wordSum_cons_cons]
      omega

/-- Bytes that add up without a carry have sums that add up. -/
theorem wordSum_map_add
    {α : Type*} {f g h : α → UInt8} {l : List α}
    (hadd : ∀ x ∈ l, (f x).toNat = (g x).toNat + (h x).toNat) :
    wordSum (l.map f) = wordSum (l.map g) + wordSum (l.map h) := by
  induction l using List.twoStepInduction with
  | nil =>
      rfl
  | singleton x =>
      simpa [wordSum] using hadd x (by simp)
  | cons_cons x y rest ih _ =>
      have hx := hadd x (by simp)
      have hy := hadd y (by simp)
      have hrest := ih fun z hz => hadd z (by simp [hz])
      simp only [List.map_cons, wordSum_cons_cons, hx, hy, hrest]
      ring

theorem wordSum_replicate_zero
    (n : Nat) :
    wordSum (List.replicate n 0) = 0 := by
  induction n using Nat.twoStepInduction with
  | zero =>
      rfl
  | one =>
      rfl
  | more n ih _ =>
      rw [List.replicate_succ, List.replicate_succ, wordSum_cons_cons, ih]
      rfl

/-- A byte string among zeros counts as its offset says. -/
theorem wordSum_among_zeros
    (i n : Nat) (bs : List UInt8) :
    ((wordSum (List.replicate i 0 ++ bs ++ List.replicate n 0) : Nat) : Ones) =
      atOffset (decide (i % 2 = 1)) (wordSum bs : Ones) := by
  have hzeros : ((wordSum (List.replicate i 0) : Nat) : Ones) = 0 := by
    rw [wordSum_replicate_zero, Nat.cast_zero]
  have hbehind : ((wordSum (List.replicate n 0) : Nat) : Ones) = 0 := by
    rw [wordSum_replicate_zero, Nat.cast_zero]
  have hnone : ∀ odd, atOffset odd 0 = 0 := by
    intro odd
    cases odd <;> simp [atOffset]
  rw [wordSum_append, wordSum_append, hzeros, hbehind, hnone, zero_add, add_zero, oddLength,
    List.length_replicate]

end Words

section Parts

/-- The folded sums of the parts of a byte string, added. -/
def partSum : List (List UInt8) → Nat
  | [] => 0
  | s :: rest => folded (wordSum s) + partSum rest

/-- The folded sums of those parts that begin at an odd offset, added. -/
def oddPartSum : Bool → List (List UInt8) → Nat
  | _, [] => 0
  | odd, s :: rest =>
      (if odd then folded (wordSum s) else 0) + oddPartSum (odd ^^ oddLength s) rest

theorem partSum_le
    (parts : List (List UInt8)) :
    partSum parts ≤ 65535 * parts.flatten.length := by
  induction parts with
  | nil =>
      simp [partSum]
  | cons s rest ih =>
      have hs : folded (wordSum s) ≤ 65535 * s.length := by
        have hle := wordSum_le s
        have hfold : folded (wordSum s) ≤ wordSum s := by
          unfold folded
          split <;> omega
        omega
      simp only [partSum, List.flatten_cons, List.length_append]
      omega

/-- Adding parts without their offsets is wrong by 255 times the sum of those at odd ones. -/
theorem wordSum_flatten
    (odd : Bool) (parts : List (List UInt8)) :
    atOffset odd (wordSum parts.flatten : Ones) =
      (partSum parts : Ones) + 255 * (oddPartSum odd parts : Ones) := by
  induction parts generalizing odd with
  | nil =>
      cases odd <;> simp [partSum, oddPartSum, wordSum, atOffset]
  | cons s rest ih =>
      have hflip : atOffset odd (atOffset (oddLength s) (wordSum rest.flatten : Ones)) =
          atOffset (odd ^^ oddLength s) (wordSum rest.flatten : Ones) := by
        cases oddLength s with
        | false =>
            simp [atOffset]
        | true =>
            simp only [Bool.xor_true]
            exact atOffset_flip odd _
      rw [List.flatten_cons, wordSum_append, atOffset_add, hflip, ih, partSum, oddPartSum]
      have hs := folded_cast (wordSum s)
      push_cast
      rw [hs]
      cases odd with
      | false =>
          simp [atOffset]
          ring
      | true =>
          simp only [atOffset, if_true]
          ring

/-- The offsets do not matter when the parts at odd ones add up to a multiple of 257. -/
theorem mul_255_eq_zero
    {n : Nat} :
    (255 : Ones) * (n : Ones) = 0 ↔ 257 ∣ n := by
  have hcast : (255 : Ones) * (n : Ones) = ((255 * n : Nat) : Ones) := by
    push_cast
    rfl
  rw [hcast, ZMod.natCast_eq_zero_iff]
  omega

/-- A difference of one can never make up for them. -/
theorem mul_255_ne_neg_one
    {n : Nat} :
    (255 : Ones) * (n : Ones) ≠ -1 := by
  intro h
  have hcast : ((255 * n + 1 : Nat) : Ones) = 0 := by
    push_cast
    rw [h]
    ring
  rw [ZMod.natCast_eq_zero_iff] at hcast
  omega

end Parts

end OnesComplement
end Warp17
