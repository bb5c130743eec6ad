import Mathlib.Tactic

/-!
# Counting loops over machine words

`for (x = start; x <= stop; x++)` with a loop variable of `w` bits and a bound that need not
fit them.  `forUpTo` runs the loop with the given fuel and collects what the bodies return;
`none` means that the fuel is used up, here or in a body.

**Results**
- `forUpTo_ends`: the loop ends when the variable can pass the bound, having seen every value
  once.
- `forUpTo_endless`: it never ends when the variable cannot.
-/

namespace Warp17
namespace WordLoops

universe u

variable {w : Nat} {σ : Type u}

/-- The loop from `x` on, with the results of the bodies in order. -/
def forUpTo (body : BitVec w → Option (List σ)) (stop : Nat) :
    Nat → BitVec w → Option (List σ)
  | 0, _ => none
  | fuel + 1, x =>
      if x.toNat ≤ stop then do
        let seen ← body x
        let rest ← forUpTo body stop fuel (x + 1)
        some (seen ++ rest)
      else some []

/-- The values from `start` to `stop`. -/
def wordsUpTo (w start stop : Nat) : List (BitVec w) :=
  (List.range' start (stop + 1 - start)).map (BitVec.ofNat w)

variable {start stop : Nat}

@[simp] theorem length_wordsUpTo :
    (wordsUpTo w start stop).length = stop + 1 - start := by
  simp [wordsUpTo]

theorem mem_wordsUpTo
    (hfits : stop < 2 ^ w)
    {x : BitVec w} :
    x ∈ wordsUpTo w start stop ↔ start ≤ x.toNat ∧ x.toNat ≤ stop := by
  simp only [wordsUpTo, List.mem_map, List.mem_range'_1]
  constructor
  · rintro ⟨n, hn, rfl⟩
    rw [BitVec.toNat_ofNat, Nat.mod_eq_of_lt (by omega)]
    omega
  · intro hx
    exact ⟨x.toNat, by omega, by simp⟩

theorem nodup_wordsUpTo
    (hfits : stop < 2 ^ w) :
    (wordsUpTo w start stop).Nodup := by
  refine List.Nodup.map_on ?_ List.nodup_range'
  intro x hx y hy heq
  simp only [List.mem_range'_1] at hx hy
  have hnat := congrArg BitVec.toNat heq
  rwa [BitVec.toNat_ofNat, BitVec.toNat_ofNat, Nat.mod_eq_of_lt (by omega),
    Nat.mod_eq_of_lt (by omega)] at hnat

theorem wordsUpTo_cons
    (hle : start ≤ stop) :
    wordsUpTo w start stop = BitVec.ofNat w start :: wordsUpTo w (start + 1) stop := by
  rw [wordsUpTo, wordsUpTo, show stop + 1 - start = (stop + 1 - (start + 1)) + 1 by omega,
    List.range'_succ, List.map_cons]

theorem wordsUpTo_nil
    (hlt : stop < start) :
    wordsUpTo w start stop = [] := by
  rw [wordsUpTo, show stop + 1 - start = 0 by omega]
  rfl

/-- One turn of the loop at the value `start`. -/
theorem forUpTo_turn
    {body : BitVec w → Option (List σ)} {fuel : Nat}
    (hstart : start < 2 ^ w)
    (hle : start ≤ stop) :
    forUpTo body stop (fuel + 1) (BitVec.ofNat w start) = (do
      let seen ← body (BitVec.ofNat w start)
      let rest ← forUpTo body stop fuel (BitVec.ofNat w (start + 1))
      some (seen ++ rest)) := by
  rw [forUpTo, if_pos, BitVec.ofNat_add]
  · rfl
  · rwa [BitVec.toNat_ofNat, Nat.mod_eq_of_lt hstart]

theorem forUpTo_past
    {body : BitVec w → Option (List σ)} {fuel : Nat}
    (hstart : start < 2 ^ w)
    (hlt : stop < start) :
    forUpTo body stop (fuel + 1) (BitVec.ofNat w start) = some [] := by
  rw [forUpTo, if_neg]
  rw [BitVec.toNat_ofNat, Nat.mod_eq_of_lt hstart]
  omega

/-- The variable gets past the bound: induction on the fuel, which exceeds the values left. -/
theorem forUpTo_ends
    {body : BitVec w → Option (List σ)} {f : BitVec w → List σ} {fuel : Nat}
    (hfits : stop + 1 < 2 ^ w)
    (hbody : ∀ x ∈ wordsUpTo w start stop, body x = some (f x))
    (hstart : start < 2 ^ w)
    (hfuel : stop + 1 - start < fuel) :
    forUpTo body stop fuel (BitVec.ofNat w start) =
      some ((wordsUpTo w start stop).flatMap f) := by
  induction fuel generalizing start with
  | zero =>
      exact absurd hfuel (Nat.not_lt_zero _)
  | succ fuel ih =>
      by_cases hle : start ≤ stop
      · rw [wordsUpTo_cons hle] at hbody ⊢
        rw [forUpTo_turn hstart hle, hbody _ List.mem_cons_self,
          ih (fun x hx => hbody x (List.mem_cons_of_mem _ hx)) (by omega) (by omega)]
        rfl
      · rw [forUpTo_past hstart (by omega), wordsUpTo_nil (by omega)]
        rfl

/-- What the loop returns does not depend on the fuel. -/
theorem forUpTo_some
    {body : BitVec w → Option (List σ)} {f : BitVec w → List σ} {fuel : Nat} {seen : List σ}
    (hfits : stop + 1 < 2 ^ w)
    (hbody : ∀ x v, body x = some v → v = f x)
    (hstart : start < 2 ^ w)
    (h : forUpTo body stop fuel (BitVec.ofNat w start) = some seen) :
    seen = (wordsUpTo w start stop).flatMap f := by
  induction fuel generalizing start seen with
  | zero =>
      cases h
  | succ fuel ih =>
      by_cases hle : start ≤ stop
      · rw [forUpTo_turn hstart hle] at h
        cases hfirst : body (BitVec.ofNat w start) with
        | none =>
            rw [hfirst] at h
            cases h
        | some first =>
            cases hrest : forUpTo body stop fuel (BitVec.ofNat w (start + 1)) with
            | none =>
                rw [hfirst, hrest] at h
                cases h
            | some rest =>
                rw [hfirst, hrest] at h
                obtain rfl := Option.some.inj h
                rw [wordsUpTo_cons hle, List.flatMap_cons, hbody _ _ hfirst,
                  ih (by omega) hrest]
      · rw [forUpTo_past hstart (by omega)] at h
        obtain rfl := Option.some.inj h
        rw [wordsUpTo_nil (by omega)]
        rfl

/-- Every value is at most the bound: induction on the fuel. -/
theorem forUpTo_endless
    {body : BitVec w → Option (List σ)}
    (hstop : 2 ^ w ≤ stop + 1)
    (fuel : Nat) (x : BitVec w) :
    forUpTo body stop fuel x = none := by
  induction fuel generalizing x with
  | zero =>
      rfl
  | succ fuel ih =>
      have hle : x.toNat ≤ stop := by
        have := x.isLt
        omega
      rw [forUpTo, if_pos hle, ih]
      cases body x <;> rfl

/-- A body that does not end is not left. -/
theorem forUpTo_of_body
    {body : BitVec w → Option (List σ)} {x : BitVec w}
    (hle : x.toNat ≤ stop)
    (hbody : body x = none)
    (fuel : Nat) :
    forUpTo body stop fuel x = none := by
  cases fuel with
  | zero =>
      rfl
  | succ fuel =>
      rw [forUpTo, if_pos hle, hbody]
      rfl

end WordLoops
end Warp17
