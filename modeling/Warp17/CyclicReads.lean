import Mathlib.Tactic

/-!
# Reading a table in a circle

A table is read one entry after the other, and from its beginning again behind its end.

**Results**
- `reads_length`: one round, from anywhere, is a rotation of the table.
- `count_round`: so any round reads every entry as often as the table has it.
-/

namespace Warp17
namespace CyclicReads

universe u

variable {α : Type u}

/-- The position after one read, and after `n`. -/
def advance (l : List α) (pos : Nat) : Nat :=
  (pos + 1) % l.length

/-- `n` entries from a position on. -/
def reads (l : List α) : Nat → Nat → List α
  | _, 0 => []
  | pos, n + 1 => (l[pos]?).toList ++ reads l (advance l pos) n

variable {l : List α} {pos n m : Nat}

@[simp] theorem reads_zero :
    reads l pos 0 = [] := by
  rfl

theorem reads_succ
    (hpos : pos < l.length) :
    reads l pos (n + 1) = l[pos] :: reads l (advance l pos) n := by
  rw [reads, List.getElem?_eq_getElem hpos]
  rfl

theorem advance_lt
    (hpos : pos < l.length) :
    advance l pos < l.length :=
  Nat.mod_lt _ (Nat.zero_lt_of_lt hpos)

/-- The reads after the first `n` begin where those end. -/
theorem reads_add
    (hpos : pos < l.length) :
    reads l pos (n + m) = reads l pos n ++ reads l ((pos + n) % l.length) m := by
  induction n generalizing pos with
  | zero =>
      rw [Nat.zero_add, reads_zero, Nat.add_zero, Nat.mod_eq_of_lt hpos]
      rfl
  | succ n ih =>
      have hnext : (advance l pos + n) % l.length = (pos + (n + 1)) % l.length := by
        rw [advance, Nat.mod_add_mod, Nat.add_assoc, Nat.add_comm 1]
      rw [Nat.add_right_comm, reads_succ hpos, reads_succ hpos, ih (advance_lt hpos), hnext]
      rfl

theorem length_reads
    (hpos : pos < l.length) :
    (reads l pos n).length = n := by
  induction n generalizing pos with
  | zero =>
      rfl
  | succ n ih =>
      rw [reads_succ hpos, List.length_cons, ih (advance_lt hpos)]

/-- Not more than a round is a part of a rotation. -/
theorem reads_eq_take
    (hpos : pos < l.length)
    (hround : n ≤ l.length) :
    reads l pos n = (l.rotate pos).take n := by
  induction n generalizing pos with
  | zero =>
      rfl
  | succ n ih =>
      have hlength := List.length_rotate l pos
      obtain ⟨a, t, hcons⟩ := List.exists_cons_of_length_pos
        (show 0 < (l.rotate pos).length by omega)
      have hhead : l[pos] = a := by
        have hget := List.head?_rotate hpos
        rw [hcons, List.head?_cons, List.getElem?_eq_getElem hpos] at hget
        exact (Option.some.inj hget).symm
      have htail : l.rotate (advance l pos) = t ++ [a] := by
        rw [advance, List.rotate_mod, ← List.rotate_rotate, hcons, List.rotate_cons_succ,
          List.rotate_zero]
      rw [hcons, List.length_cons] at hlength
      rw [reads_succ hpos, ih (advance_lt hpos) (by omega), hcons, htail, List.take_succ_cons,
        List.take_append_of_le_length (by omega), hhead]

theorem reads_length
    (hpos : pos < l.length) :
    reads l pos l.length = l.rotate pos := by
  rw [reads_eq_take hpos le_rfl, ← List.length_rotate l pos, List.take_length]

/-- Every round reads each entry as often as the table has it. -/
theorem count_round
    [BEq α]
    (hpos : pos < l.length)
    (a : α) :
    ((reads l pos (n + l.length)).drop n).count a = l.count a := by
  have hlt : (pos + n) % l.length < l.length := Nat.mod_lt _ (Nat.zero_lt_of_lt hpos)
  rw [reads_add hpos, List.drop_append_of_le_length (length_reads hpos).ge,
    List.drop_of_length_le (length_reads hpos).le, List.nil_append, reads_length hlt]
  exact (List.rotate_perm l _).count_eq a

end CyclicReads
end Warp17
