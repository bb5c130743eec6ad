import Mathlib.Tactic

/-!
# Toeplitz hashing

A key is a row of bits.  The hash of a bit string is the exclusive or of one window of the key
for each bit that is set, where the window starts at the place of the bit.  For a byte string the
hash can be looked up: one table for each position, with the hash of each byte there.

**Results**
- `hashFrom_append`: the hash of two parts is the exclusive or of their hashes.
- `hashFrom_congr`: no key bit behind the last window matters.
- `foldXor_eq`, `foldOr_eq`: the two loops that compute a hash and a window.
-/

namespace Warp17
namespace ToeplitzHashing

section Hash

/-- The `w` bits of the key from place `i` on, the first of them in front. -/
def window : (w : Nat) → (Nat → Bool) → Nat → BitVec w
  | 0, _, _ => BitVec.nil
  | w + 1, key, i => BitVec.cons (key i) (window w key (i + 1))

/-- The hash of a bit string that begins at place `i`. -/
def hashFrom (w : Nat) (key : Nat → Bool) : Nat → List Bool → BitVec w
  | _, [] => 0#w
  | i, b :: rest => (if b then window w key i else 0#w) ^^^ hashFrom w key (i + 1) rest

variable {w : Nat}

theorem getLsbD_window
    {j : Nat}
    (key : Nat → Bool) (i : Nat)
    (hj : j < w) :
    (window w key i).getLsbD j = key (i + (w - 1 - j)) := by
  induction w generalizing i with
  | zero =>
      omega
  | succ w ih =>
      rw [window, BitVec.getLsbD_cons]
      split
      · rename_i heq
        rw [heq]
        simp
      · rw [ih (i + 1) (by omega)]
        congr 1
        omega

@[simp] theorem hashFrom_nil
    (key : Nat → Bool) (i : Nat) :
    hashFrom w key i [] = 0#w := by
  rfl

@[simp] theorem hashFrom_cons
    (key : Nat → Bool) (i : Nat) (b : Bool) (rest : List Bool) :
    hashFrom w key i (b :: rest) =
      (if b then window w key i else 0#w) ^^^ hashFrom w key (i + 1) rest := by
  rfl

/-- The hash of two parts is the exclusive or of their hashes. -/
theorem hashFrom_append
    (key : Nat → Bool) (i : Nat) (bs cs : List Bool) :
    hashFrom w key i (bs ++ cs) =
      hashFrom w key i bs ^^^ hashFrom w key (i + bs.length) cs := by
  induction bs generalizing i with
  | nil =>
      simp
  | cons b bs ih =>
      rw [List.cons_append, hashFrom_cons, hashFrom_cons, ih, BitVec.xor_assoc,
        List.length_cons, Nat.add_assoc, Nat.add_comm 1]

/-- A window is determined by its own bits. -/
theorem window_congr
    {key key' : Nat → Bool} {i : Nat}
    (h : ∀ k < i + w, key k = key' k) :
    window w key i = window w key' i := by
  refine BitVec.eq_of_getLsbD_eq fun j hj => ?_
  rw [getLsbD_window key i hj, getLsbD_window key' i hj]
  exact h _ (by omega)

/-- No key bit behind the last window matters. -/
theorem hashFrom_congr
    {key key' : Nat → Bool} {i : Nat} {bs : List Bool}
    (h : ∀ k < i + bs.length + w, key k = key' k) :
    hashFrom w key i bs = hashFrom w key' i bs := by
  induction bs generalizing i with
  | nil =>
      rfl
  | cons b bs ih =>
      rw [List.length_cons] at h
      rw [hashFrom_cons, hashFrom_cons, ih fun k hk => h k (by omega),
        window_congr fun k hk => h k (by omega)]

end Hash

section Bytes

/-- The bits of a byte, the most significant one first. -/
def byteBits (x : UInt8) : List Bool :=
  (List.range 8).map fun b => x.toNat.testBit (7 - b)

/-- The bits of a key that is stored in bytes. -/
def keyBits (key : Nat → UInt8) (i : Nat) : Bool :=
  (key (i / 8)).toNat.testBit (7 - i % 8)

/-- The hash of a byte string. -/
def hashBytes (w : Nat) (key : Nat → UInt8) (bytes : List UInt8) : BitVec w :=
  hashFrom w (keyBits key) 0 (bytes.flatMap byteBits)

theorem byteBits_length
    (x : UInt8) :
    (byteBits x).length = 8 := by
  simp [byteBits]

/-- The hashes of the bytes, each at its own position. -/
def hashTable (w : Nat) (key : Nat → UInt8) (i : Nat) (x : UInt8) : BitVec w :=
  hashFrom w (keyBits key) (8 * i) (byteBits x)

theorem hashFrom_bytes
    {w : Nat}
    (key : Nat → UInt8) (i : Nat) (x : UInt8) (rest : List UInt8) :
    hashFrom w (keyBits key) (8 * i) ((x :: rest).flatMap byteBits) =
      hashTable w key i x ^^^ hashFrom w (keyBits key) (8 * (i + 1)) (rest.flatMap byteBits) := by
  rw [List.flatMap_cons, hashFrom_append, byteBits_length]
  rfl

theorem flatMap_byteBits_length
    (bytes : List UInt8) :
    (bytes.flatMap byteBits).length = 8 * bytes.length := by
  induction bytes with
  | nil =>
      rfl
  | cons x rest ih =>
      rw [List.flatMap_cons, List.length_append, ih, byteBits_length, List.length_cons]
      omega

/-- The hash of `n` bytes reads as many bytes of the key, and one window. -/
theorem hashBytes_congr
    {w : Nat} {key key' : Nat → UInt8} {bytes : List UInt8}
    (h : ∀ k, 8 * k < 8 * bytes.length + w → key k = key' k) :
    hashBytes w key bytes = hashBytes w key' bytes := by
  refine hashFrom_congr fun k hk => ?_
  rw [flatMap_byteBits_length] at hk
  rw [keyBits, keyBits, h (k / 8) (by omega)]

end Bytes

section Loops

variable {w : Nat}

/-- The loop that adds the window of each bit that is set. -/
theorem foldXor_eq
    (key : Nat → Bool) (i n : Nat) (bit : Nat → Bool) :
    (List.range n).foldl
        (fun res b => if bit b then res ^^^ window w key (i + b) else res) 0 =
      hashFrom w key i ((List.range n).map bit) := by
  induction n with
  | zero =>
      rfl
  | succ n ih =>
      rw [List.range_succ, List.foldl_append, ih, List.map_append, hashFrom_append]
      cases hbit : bit n <;> simp [hbit]

/-- The loop that sets the bits of a window. -/
theorem foldOr_eq
    (key : Nat → Bool) (i : Nat) :
    (List.range w).foldl
        (fun res j => if key (i + j) then res ||| (1#w <<< (w - 1 - j)) else res) 0 =
      window w key i := by
  have hloop : ∀ n ≤ w, ∀ k < w,
      ((List.range n).foldl
        (fun res j => if key (i + j) then res ||| (1#w <<< (w - 1 - j)) else res)
        (0 : BitVec w)).getLsbD k = (decide (w ≤ n + k) && key (i + (w - 1 - k))) := by
    intro n
    induction n with
    | zero =>
        intro _ k hk
        simp
        omega
    | succ n ih =>
        intro hn k hk
        rw [List.range_succ, List.foldl_append]
        simp only [List.foldl_cons, List.foldl_nil]
        have hih := ih (by omega) k hk
        by_cases hbit : key (i + n) = true
        · have hset : (1#w <<< (w - 1 - n)).getLsbD k = decide (w - 1 - n = k) := by
            rw [← BitVec.twoPow_eq, BitVec.getLsbD_twoPow]
            simp
            omega
          rw [if_pos hbit, BitVec.getLsbD_or, hih, hset]
          by_cases hk' : w - 1 - n = k
          · have hn' : w - 1 - k = n := by omega
            simp [hk', hn', hbit]
            omega
          · have hiff : (w ≤ n + 1 + k) ↔ (w ≤ n + k) := by omega
            simp [hk', hiff]
        · rw [if_neg hbit, hih]
          by_cases hk' : w - 1 - n = k
          · have hn' : w - 1 - k = n := by omega
            simp [hn', hbit]
          · have hiff : (w ≤ n + 1 + k) ↔ (w ≤ n + k) := by omega
            simp [hiff]
  refine BitVec.eq_of_getLsbD_eq fun k hk => ?_
  rw [hloop w (le_refl w) k hk, getLsbD_window key i hk]
  simp

end Loops

end ToeplitzHashing
end Warp17
