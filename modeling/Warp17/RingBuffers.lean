import Warp17.StreamSlices

/-!
# Ring buffers

A block of `n` cells is read and written at positions modulo `n`.  A copy that passes the end
of the block is made in two pieces.  The contents of a ring are the slice of the unrolled
block from its start on; a write right after the contents leaves them alone as long as both
fit into the block.

**Results**
- `readSplit_eq`: two pieces make up a slice of the unrolled block.
- `writeSplit_slice`: what is written is read.
- `writeSplit_other`: what ends where the write begins is not changed.
-/

namespace Warp17
namespace RingBuffers

open StreamSlices

universe u

variable {α : Type u}

/-- Write a list at a position. -/
def memWrite (buf : Nat → α) (pos : Nat) (bs : List α) : Nat → α :=
  fun i => if pos ≤ i then bs[i - pos]?.getD (buf i) else buf i

/-- The unrolled block. -/
def ring (n : Nat) (buf : Nat → α) : Nat → α :=
  fun k => buf (k % n)

/-- Read in two pieces when the end of the block is passed. -/
def readSplit (n : Nat) (buf : Nat → α) (pos len : Nat) : List α :=
  if n - pos < len then
    slice buf pos (n - pos) ++ slice buf 0 (len - (n - pos))
  else
    slice buf pos len

/-- Write in two pieces when the end of the block is reached. -/
def writeSplit (n : Nat) (buf : Nat → α) (pos : Nat) (bs : List α) : Nat → α :=
  if bs.length < n - pos then
    memWrite buf pos bs
  else
    memWrite (memWrite buf pos (bs.take (n - pos))) 0 (bs.drop (n - pos))

section Slices

variable {n : Nat} {buf : Nat → α}

theorem slice_congr
    {f g : Nat → α} {a b len : Nat}
    (h : ∀ k, k < len → f (a + k) = g (b + k)) :
    slice f a len = slice g b len := by
  apply List.ext_getElem
  · simp
  · intro k hk hk'
    rw [length_slice] at hk
    simp only [slice, List.getElem_map, List.getElem_range', one_mul]
    exact h k hk

theorem slice_mod
    (a len : Nat) :
    slice (ring n buf) (a % n) len = slice (ring n buf) a len :=
  slice_congr fun k _ => by simp [ring, Nat.mod_add_mod]

/-- Inside the block the unrolled block is the block. -/
theorem slice_within
    {a len : Nat}
    (h : a + len ≤ n) :
    slice (ring n buf) a len = slice buf a len :=
  slice_congr fun k hk => by rw [ring, Nat.mod_eq_of_lt (by omega)]

theorem readSplit_eq
    {pos len : Nat}
    (hpos : pos < n)
    (hlen : len ≤ n) :
    readSplit n buf pos len = slice (ring n buf) pos len := by
  unfold readSplit
  split
  · rename_i hwraps
    have hjoin := slice_append (ring n buf) pos (n - pos) (len - (n - pos))
    have hlen' : n - pos + (len - (n - pos)) = len := by omega
    have hend : pos + (n - pos) = n := by omega
    rw [hlen', hend] at hjoin
    rw [← hjoin, slice_within (a := pos) (by omega), ← slice_mod n, Nat.mod_self,
      slice_within (by omega)]
  · exact (slice_within (by omega)).symm

theorem memWrite_of_lt
    {pos i : Nat} {bs : List α}
    (h : i < pos) :
    memWrite buf pos bs i = buf i := by
  rw [memWrite, if_neg (by omega)]

theorem memWrite_add
    {pos k : Nat} {bs : List α} :
    memWrite buf pos bs (pos + k) = bs[k]?.getD (buf (pos + k)) := by
  rw [memWrite, if_pos (by omega), Nat.add_sub_cancel_left]

/-- The cells a write of both pieces changes, counted from its position. -/
theorem writeSplit_apply
    {pos k : Nat} {bs : List α}
    (hpos : pos < n)
    (hk : k < n)
    (hlen : bs.length ≤ n) :
    writeSplit n buf pos bs ((pos + k) % n) = bs[k]?.getD (buf ((pos + k) % n)) := by
  unfold writeSplit
  by_cases hin : pos + k < n
  · rw [Nat.mod_eq_of_lt hin]
    split
    · exact memWrite_add
    · rename_i hwraps
      -- the second piece ends in front of the first one
      have hsecond : memWrite (memWrite buf pos (bs.take (n - pos))) 0 (bs.drop (n - pos))
          (pos + k) = memWrite buf pos (bs.take (n - pos)) (pos + k) := by
        rw [memWrite, if_pos (Nat.zero_le _), Nat.sub_zero, List.getElem?_eq_none]
        · rfl
        · rw [List.length_drop]
          omega
      rw [hsecond, memWrite_add, List.getElem?_take_of_lt (by omega)]
  · have hmod : (pos + k) % n = pos + k - n := by
      rw [Nat.mod_eq_sub_mod (by omega), Nat.mod_eq_of_lt (by omega)]
    rw [hmod]
    split
    · rename_i hfits
      rw [memWrite_of_lt (by omega), List.getElem?_eq_none (by omega)]
      rfl
    · rename_i hwraps
      rw [memWrite, if_pos (Nat.zero_le _), Nat.sub_zero, List.getElem?_drop,
        memWrite_of_lt (by omega)]
      congr 2
      omega

/-- What is written is read. -/
theorem writeSplit_slice
    (buf : Nat → α) (bs : List α) {pos : Nat}
    (hpos : pos < n)
    (hlen : bs.length ≤ n) :
    slice (ring n (writeSplit n buf pos bs)) pos bs.length = bs := by
  apply List.ext_getElem
  · simp
  · intro k hk hk'
    simp only [slice, List.getElem_map, List.getElem_range', one_mul, ring]
    rw [writeSplit_apply hpos (by omega) hlen, List.getElem?_eq_getElem hk']
    rfl

/-- What ends where the write begins is not changed, when both fit. -/
theorem writeSplit_other
    (buf : Nat → α) (bs : List α) {pos a len : Nat}
    (hpos : pos < n)
    (hend : (a + len) % n = pos)
    (hfits : len + bs.length ≤ n) :
    slice (ring n (writeSplit n buf pos bs)) a len = slice (ring n buf) a len := by
  refine slice_congr fun k hk => ?_
  have hplace : (a + k) % n = (pos + (n - len + k)) % n := by
    rw [← hend, Nat.mod_add_mod]
    have hsum : a + len + (n - len + k) = a + k + n := by omega
    rw [hsum, Nat.add_mod_right]
  simp only [ring]
  rw [hplace, writeSplit_apply hpos (by omega) (by omega), List.getElem?_eq_none (by omega)]
  rfl

end Slices

end RingBuffers
end Warp17
