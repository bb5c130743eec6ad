import Mathlib.Tactic

/-!
# Calls with a bound on their depth

A function that calls itself along data which may lead back to where it started need not return.
Such a function takes a number, goes down at most so often, and fails where that is not enough.
A call ends when from some number on it returns the same.

**Results**
- `ends_of_succ`: a call that goes down once ends with what it calls.
- `Ends.bind`: one call after the other.
- `bind_returns`: both calls return when the second does after the first.
-/

namespace Warp17
namespace BoundedCalls

universe u v

variable {ε : Type u} {α : Type v} {β : Type v}

/-- From some number on the call returns `a`. -/
def Ends (call : Nat → Except ε α) (a : α) : Prop :=
  ∃ n, ∀ fuel, n ≤ fuel → call fuel = .ok a

theorem Ends.ok
    {call : Nat → Except ε α} {a : α}
    (h : Ends call a) :
    ∃ fuel, call fuel = .ok a := by
  obtain ⟨n, hn⟩ := h
  exact ⟨n, hn n le_rfl⟩

theorem Ends.unique
    {call : Nat → Except ε α} {a b : α}
    (h : Ends call a)
    (h' : Ends call b) :
    a = b := by
  obtain ⟨n, hn⟩ := h
  obtain ⟨m, hm⟩ := h'
  have ha := hn (max n m) (le_max_left n m)
  rw [hm (max n m) (le_max_right n m)] at ha
  exact (Except.ok.inj ha).symm

theorem ends_of_forall
    {call : Nat → Except ε α} {a : α}
    (h : ∀ fuel, call fuel = .ok a) :
    Ends call a :=
  ⟨0, fun fuel _ => h fuel⟩

/-- A call that goes down once. -/
theorem ends_of_succ
    {call : Nat → Except ε α} {a : α}
    (h : Ends (fun fuel => call (fuel + 1)) a) :
    Ends call a := by
  obtain ⟨n, hn⟩ := h
  refine ⟨n + 1, fun fuel hle => ?_⟩
  obtain ⟨k, rfl⟩ := Nat.exists_eq_add_of_le' (Nat.le_of_succ_le hle)
  cases k with
  | zero => omega
  | succ k =>
      rw [Nat.add_right_comm]
      exact hn _ (Nat.le_add_left _ _)

theorem Ends.bind
    {call : Nat → Except ε α} {next : α → Nat → Except ε β} {a : α} {b : β}
    (h : Ends call a)
    (hnext : Ends (next a) b) :
    Ends (fun fuel => call fuel >>= fun x => next x fuel) b := by
  obtain ⟨n, hn⟩ := h
  obtain ⟨m, hm⟩ := hnext
  refine ⟨max n m, fun fuel hle => ?_⟩
  show (call fuel >>= fun x => next x fuel) = _
  rw [hn fuel (le_of_max_le_left hle)]
  exact hm fuel (le_of_max_le_right hle)

theorem bind_returns
    {x : Except ε α} {f : α → Except ε β} {b : β}
    (h : (x >>= f) = .ok b) :
    ∃ a, x = .ok a ∧ f a = .ok b := by
  cases x with
  | error e => cases h
  | ok a => exact ⟨a, rfl, h⟩

end BoundedCalls
end Warp17
