import Mathlib.Data.Nat.Digits.Lemmas
import Mathlib.Tactic

/-!
# Numbers in text

Reading and writing numbers as C does it: `%u` and `%X` of `printf`, and `strtol` and `strtoull`
with what they skip, what they stop at and what they do on overflow.  A string is the list of its
characters without the terminator.

**Results**
- `spanDigits_showDigits`: reading back what was printed, whatever follows it.
- `strtol_showDigits`, `strtoull_showDigits`: the same for the two functions.
-/

namespace Warp17
namespace NumberText

/-- `isspace` in the C locale. -/
def isSpace (c : Char) : Bool :=
  c == ' ' || (9 ≤ c.toNat && c.toNat ≤ 13)

/-- The value of a digit of a base of at most 36. -/
def digitVal (c : Char) : Option Nat :=
  if 48 ≤ c.toNat ∧ c.toNat ≤ 57 then some (c.toNat - 48)
  else if 65 ≤ c.toNat ∧ c.toNat ≤ 90 then some (c.toNat - 55)
  else if 97 ≤ c.toNat ∧ c.toNat ≤ 122 then some (c.toNat - 87)
  else none

/-- The digit as `%u` and `%X` print it. -/
def digitChar (d : Nat) : Char :=
  Char.ofNat (if d < 10 then 48 + d else 55 + d)

/-- `printf` of a natural number in a base. -/
def showDigits (base n : Nat) : List Char :=
  if n = 0 then ['0'] else (Nat.digits base n).reverse.map digitChar

/-- The value of the digits at the beginning of a string, after `acc`, and what follows them. -/
def spanDigits (base : Nat) : Nat → List Char → Nat × List Char
  | acc, [] => (acc, [])
  | acc, c :: s =>
      match digitVal c with
      | some d => if d < base then spanDigits base (acc * base + d) s else (acc, c :: s)
      | none => (acc, c :: s)

/-- An optional sign, and whether it is a minus. -/
def spanSign : List Char → Bool × List Char
  | '-' :: s => (true, s)
  | '+' :: s => (false, s)
  | s => (false, s)

/-- `strtol(s, NULL, 10)`; `none` where it sets `errno`. -/
def strtol (s : List Char) : Option Int :=
  let signed := spanSign (s.dropWhile isSpace)
  let value := (spanDigits 10 0 signed.2).1
  if signed.1 then
    if 2 ^ 63 < value then none else some (-value)
  else
    if 2 ^ 63 ≤ value then none else some value

/-- The string begins with a hexadecimal digit. -/
def startsHex : List Char → Bool
  | [] => false
  | c :: _ => (digitVal c).any (· < 16)

/-- The `0x` that `strtoull` skips in base 16, which must have a digit after it. -/
def skipHexPrefix : List Char → List Char
  | '0' :: x :: s => if (x = 'x' ∨ x = 'X') ∧ startsHex s = true then s else '0' :: x :: s
  | s => s

/-- `strtoull(s, &endptr, 16)`: the value, whether it sets `errno`, and the rest of the string. -/
def strtoull (s : List Char) : Nat × Bool × List Char :=
  let signed := spanSign (s.dropWhile isSpace)
  let digits := skipHexPrefix signed.2
  if startsHex digits then
    let read := spanDigits 16 0 digits
    if 2 ^ 64 ≤ read.1 then (2 ^ 64 - 1, true, read.2)
    else (if signed.1 then (2 ^ 64 - read.1) % 2 ^ 64 else read.1, false, read.2)
  else (0, false, s)

/-! ## Reading what was printed -/

section RoundTrip

theorem digitVal_digitChar
    {d : Nat}
    (hd : d < 16) :
    digitVal (digitChar d) = some d := by
  interval_cases d <;> rfl

theorem digitChar_ne
    {d : Nat} {c : Char}
    (hd : d < 16)
    (hc : digitVal c ≠ some d) :
    digitChar d ≠ c := by
  rintro rfl
  exact hc (digitVal_digitChar hd)

theorem not_isSpace_digitChar
    {d : Nat}
    (hd : d < 16) :
    isSpace (digitChar d) = false := by
  interval_cases d <;> rfl

theorem spanDigits_map
    {base : Nat} {ds : List Nat}
    (hbase : base ≤ 16)
    (hds : ∀ d ∈ ds, d < base)
    (acc : Nat) (s : List Char)
    (hs : ∀ c ∈ s.head?, digitVal c = none) :
    spanDigits base acc (ds.map digitChar ++ s) =
      (ds.foldl (fun n d => n * base + d) acc, s) := by
  induction ds generalizing acc with
  | nil =>
      cases s with
      | nil =>
          rfl
      | cons c s =>
          rw [List.map_nil, List.nil_append, spanDigits, hs c rfl]
          rfl
  | cons d ds ih =>
      have hd := hds d (by simp)
      rw [List.map_cons, List.cons_append, spanDigits, digitVal_digitChar (by omega)]
      simp only [hd, if_true]
      exact ih (fun e he => hds e (by simp [he])) _

/-- What is printed are digits of the base, and their value is the number. -/
theorem showDigits_spec
    {base : Nat}
    (hbase : 1 < base)
    (n : Nat) :
    ∃ d ds, showDigits base n = (d :: ds).map digitChar ∧ (∀ e ∈ d :: ds, e < base) ∧
      (d :: ds).foldl (fun m e => m * base + e) 0 = n := by
  rcases eq_or_ne n 0 with rfl | hn
  · exact ⟨0, [], rfl, by simp; omega, by simp⟩
  · have hvalue : (Nat.digits base n).reverse.foldl (fun m e => m * base + e) 0 = n := by
      rw [List.foldl_reverse]
      calc (Nat.digits base n).foldr (fun e m => m * base + e) 0
          = Nat.ofDigits base (Nat.digits base n) := by
            rw [Nat.ofDigits_eq_foldr]
            simp only [Nat.cast_id, Nat.mul_comm, Nat.add_comm]
        _ = n := Nat.ofDigits_digits base n
    obtain ⟨d, ds, hcons⟩ := List.exists_cons_of_ne_nil
      (List.reverse_ne_nil_iff.2 (Nat.digits_ne_nil_iff_ne_zero.2 hn))
    refine ⟨d, ds, ?_, ?_, ?_⟩
    · rw [showDigits, if_neg hn, hcons]
    · rw [← hcons]
      exact fun e he => Nat.digits_lt_base hbase (List.mem_reverse.1 he)
    · rw [← hcons, hvalue]

theorem spanDigits_showDigits
    {base : Nat}
    (hone : 1 < base)
    (hbase : base ≤ 16)
    (n : Nat) (s : List Char)
    (hs : ∀ c ∈ s.head?, digitVal c = none) :
    spanDigits base 0 (showDigits base n ++ s) = (n, s) := by
  obtain ⟨d, ds, hshow, hlt, hvalue⟩ := showDigits_spec hone n
  rw [hshow, spanDigits_map hbase hlt 0 s hs, hvalue]

/-- No character of a printed number is one that is not a digit. -/
theorem not_mem_showDigits
    {base : Nat} {c : Char}
    (hone : 1 < base)
    (hbase : base ≤ 16)
    (n : Nat)
    (hc : ∀ d < 16, digitVal c ≠ some d) :
    c ∉ showDigits base n := by
  obtain ⟨d, ds, hshow, hlt, -⟩ := showDigits_spec hone n
  rw [hshow, List.mem_map]
  rintro ⟨e, he, rfl⟩
  have he16 := (hlt e he).trans_le hbase
  exact digitChar_ne he16 (hc e he16) rfl

/-- A printed number has no space and no sign in front. -/
theorem spanSign_showDigits
    {base : Nat}
    (hone : 1 < base)
    (hbase : base ≤ 16)
    (n : Nat) :
    spanSign ((showDigits base n).dropWhile isSpace) = (false, showDigits base n) := by
  obtain ⟨d, ds, hshow, hlt, -⟩ := showDigits_spec hone n
  have hd : d < 16 := (hlt d (by simp)).trans_le hbase
  rw [hshow, List.map_cons, List.dropWhile_cons_of_neg (by rw [not_isSpace_digitChar hd]; simp)]
  rw [spanSign.eq_3]
  · intro t ht
    exact digitChar_ne hd (c := '-') (by simp [digitVal]) (List.cons.inj ht).1
  · intro t ht
    exact digitChar_ne hd (c := '+') (by simp [digitVal]) (List.cons.inj ht).1

theorem strtol_showDigits
    {n : Nat}
    (hn : n < 2 ^ 63) :
    strtol (showDigits 10 n) = some (n : Int) := by
  have hread := @spanDigits_showDigits 10 (by omega) (by omega) n [] (by simp)
  rw [List.append_nil] at hread
  rw [strtol, spanSign_showDigits (by omega) (by omega), hread]
  simp only [Bool.false_eq_true, if_false]
  rw [if_neg (by omega)]

theorem strtoull_showDigits
    {n : Nat}
    (hn : n < 2 ^ 64) :
    strtoull (showDigits 16 n) = (n, false, []) := by
  have hread := @spanDigits_showDigits 16 (by omega) (by omega) n [] (by simp)
  rw [List.append_nil] at hread
  obtain ⟨d, ds, hshow, hlt, -⟩ := @showDigits_spec 16 (by omega) n
  have hstarts : startsHex (showDigits 16 n) = true := by
    rw [hshow, List.map_cons, startsHex, digitVal_digitChar (hlt d (by simp))]
    simpa using hlt d (by simp)
  have hskip : skipHexPrefix (showDigits 16 n) = showDigits 16 n := by
    have hx : 'x' ∉ showDigits 16 n :=
      not_mem_showDigits (by omega) (by omega) n (by decide)
    have hX : 'X' ∉ showDigits 16 n :=
      not_mem_showDigits (by omega) (by omega) n (by decide)
    unfold skipHexPrefix
    split
    next x s heq =>
      rw [heq] at hx hX
      have hnot : ¬ ((x = 'x' ∨ x = 'X') ∧ startsHex s = true) := by
        rintro ⟨rfl | rfl, -⟩
        · simp at hx
        · simp at hX
      rw [if_neg hnot, heq]
    next => rfl
  rw [strtoull, spanSign_showDigits (by omega) (by omega)]
  simp only [hskip, hstarts, if_true, hread, Bool.false_eq_true, if_false]
  rw [if_neg (by omega)]

end RoundTrip

end NumberText
end Warp17
