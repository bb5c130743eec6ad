import Mathlib.Tactic

/-!
# Slices of a stream

A stream is a function from positions to values.  `slice stream a n` is the list of its `n`
values from position `a` on.  Slices that meet are appended, and cutting a slice at either
end gives a slice again; nothing else is needed to follow a stream through a buffer that
splits, trims and joins it.

**Results**
- `slice_append`: adjacent slices join.
- `take_slice`, `drop_slice`: a trimmed slice is a slice.
-/

namespace Warp17
namespace StreamSlices

universe u

variable {α : Type u}

/-- The `n` values of the stream from position `a` on. -/
def slice (stream : Nat → α) (a n : Nat) : List α :=
  (List.range' a n).map stream

@[simp] theorem slice_zero
    (stream : Nat → α) (a : Nat) :
    slice stream a 0 = [] := by
  rfl

@[simp] theorem length_slice
    (stream : Nat → α) (a n : Nat) :
    (slice stream a n).length = n := by
  simp [slice]

theorem slice_succ
    (stream : Nat → α) (a n : Nat) :
    slice stream a (n + 1) = stream a :: slice stream (a + 1) n := by
  simp [slice, List.range'_succ]

theorem slice_append
    (stream : Nat → α) (a m n : Nat) :
    slice stream a m ++ slice stream (a + m) n = slice stream a (m + n) := by
  simp [slice, ← List.map_append]

@[simp] theorem drop_slice
    (stream : Nat → α) (a n k : Nat) :
    (slice stream a n).drop k = slice stream (a + k) (n - k) := by
  simp [slice, ← List.map_drop]

@[simp] theorem take_slice
    (stream : Nat → α) (a n k : Nat) :
    (slice stream a n).take k = slice stream a (min k n) := by
  apply List.ext_getElem
  · simp
  · intro i hi hi'
    simp [slice]

@[simp] theorem slice_eq_nil_iff
    (stream : Nat → α) (a n : Nat) :
    slice stream a n = [] ↔ n = 0 := by
  rw [← List.length_eq_zero_iff, length_slice]

end StreamSlices
end Warp17
