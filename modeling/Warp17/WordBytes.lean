import Mathlib.Tactic

/-!
# Words and their bytes

The bytes of a number in network order, the number that a row of bytes stands for, and rows of
bytes in a memory.

**Results**
- `netValue_netBytes`, `netBytes_netValue`: the two are inverse to each other.
- `toNat_append`: a word that is put together from two.
- `holds_append`, `holds_getD`: where the parts of a row lie.
-/

namespace Warp17
namespace WordBytes

/-- The number that bytes stand for in network order. -/
def netValue : List UInt8 → Nat
  | [] => 0
  | x :: rest => x.toNat * 256 ^ rest.length + netValue rest

/-- The last `n` bytes of a number, in network order. -/
def netBytes : Nat → Nat → List UInt8
  | 0, _ => []
  | n + 1, v => UInt8.ofNat (v / 256 ^ n) :: netBytes n v

@[simp] theorem length_netBytes
    (n v : Nat) :
    (netBytes n v).length = n := by
  induction n with
  | zero =>
      rfl
  | succ n ih =>
      rw [netBytes, List.length_cons, ih]

theorem netValue_lt
    (bytes : List UInt8) :
    netValue bytes < 256 ^ bytes.length := by
  induction bytes with
  | nil =>
      simp [netValue]
  | cons x rest ih =>
      have hx : x.toNat + 1 ≤ 256 := x.toNat_lt
      have hmul := Nat.mul_le_mul_right (256 ^ rest.length) hx
      rw [netValue, List.length_cons, pow_succ]
      rw [Nat.add_mul] at hmul
      omega

/-- Reading back what was written. -/
theorem netValue_netBytes
    (n v : Nat) :
    netValue (netBytes n v) = v % 256 ^ n := by
  induction n with
  | zero =>
      simp [netBytes, netValue, Nat.mod_one]
  | succ n ih =>
      have hbyte : (UInt8.ofNat (v / 256 ^ n)).toNat = v / 256 ^ n % 256 := UInt8.toNat_ofNat'
      have hsplit : v % (256 ^ n * 256) = v % 256 ^ n + 256 ^ n * (v / 256 ^ n % 256) :=
        Nat.mod_mul
      rw [netBytes, netValue, ih, length_netBytes, hbyte, pow_succ, hsplit, Nat.mul_comm,
        Nat.add_comm]

/-- Writing what was read. -/
theorem netBytes_netValue
    (bytes : List UInt8) :
    netBytes bytes.length (netValue bytes) = bytes := by
  have hmore : ∀ (rest : List UInt8) (k : Nat),
      netBytes rest.length (k * 256 ^ rest.length + netValue rest) = rest := by
    intro rest
    induction rest with
    | nil =>
        intro k
        rfl
    | cons x rest ih =>
        intro k
        have hlt := netValue_lt rest
        have hpos : 0 < 256 ^ rest.length := Nat.pow_pos (by decide)
        have hsplit : k * 256 ^ (rest.length + 1) +
            (x.toNat * 256 ^ rest.length + netValue rest) =
              (k * 256 + x.toNat) * 256 ^ rest.length + netValue rest := by
          ring
        rw [List.length_cons, netValue, netBytes, hsplit, ih]
        rw [Nat.add_comm, Nat.add_mul_div_right _ _ hpos, Nat.div_eq_of_lt hlt, Nat.zero_add]
        congr 1
        refine UInt8.toNat_inj.1 ?_
        have hx := x.toNat_lt
        rw [UInt8.toNat_ofNat']
        omega
  simpa using hmore bytes 0

/-- A word that is put together from two. -/
theorem toNat_append
    {n m : Nat}
    (x : BitVec n) (y : BitVec m) :
    (x ++ y).toNat = x.toNat * 2 ^ m + y.toNat := by
  rw [BitVec.toNat_append, Nat.shiftLeft_eq, Nat.mul_comm, Nat.two_pow_add_eq_or_of_lt y.isLt]

/-- A row of bytes lies in a memory from an offset on. -/
def Holds (mem : Nat → UInt8) (offset : Nat) : List UInt8 → Prop
  | [] => True
  | x :: rest => mem offset = x ∧ Holds mem (offset + 1) rest

section Memories

variable {mem : Nat → UInt8} {offset : Nat}

@[simp] theorem holds_nil :
    Holds mem offset [] := by
  trivial

@[simp] theorem holds_cons
    (x : UInt8) (rest : List UInt8) :
    Holds mem offset (x :: rest) ↔ mem offset = x ∧ Holds mem (offset + 1) rest := by
  rfl

/-- The parts of a row lie one behind the other. -/
theorem holds_append
    (xs ys : List UInt8) :
    Holds mem offset (xs ++ ys) ↔ Holds mem offset xs ∧ Holds mem (offset + xs.length) ys := by
  induction xs generalizing offset with
  | nil =>
      simp
  | cons x xs ih =>
      rw [List.cons_append, holds_cons, holds_cons, ih, List.length_cons, and_assoc,
        Nat.add_right_comm, Nat.add_assoc]

/-- A part of a list lies behind the part before it. -/
theorem holds_getD
    (pre xs post : List UInt8) :
    Holds (fun i => (pre ++ (xs ++ post)).getD i 0) pre.length xs := by
  induction xs generalizing pre with
  | nil =>
      trivial
  | cons x xs ih =>
      have hrest := ih (pre ++ [x])
      rw [List.length_append, List.length_singleton, List.append_assoc] at hrest
      exact ⟨by simp, hrest⟩

/-- A row in a memory, byte by byte. -/
theorem Holds.getD
    {xs : List UInt8} {i : Nat}
    (h : Holds mem offset xs)
    (hi : i < xs.length) :
    mem (offset + i) = xs.getD i 0 := by
  induction xs generalizing offset i with
  | nil =>
      cases hi
  | cons x xs ih =>
      cases i with
      | zero =>
          exact h.1
      | succ i =>
          rw [List.getD_cons_succ, ← ih h.2 (Nat.lt_of_succ_lt_succ hi), Nat.add_right_comm,
            Nat.add_assoc]

end Memories

end WordBytes
end Warp17
