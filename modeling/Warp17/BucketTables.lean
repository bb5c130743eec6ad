import Mathlib.Tactic

/-!
# Tables of buckets

A table is a list of entries for each bucket.  An entry is put in front of its bucket, and
removed from it; a search goes through one bucket from the front.  `Holds` says that the
buckets contain the entries that are present, each once and in its own bucket.

**Results**
- `Holds.insert`, `Holds.remove`: the two operations.
- `Holds.find_iff`: when at most one entry is searched for, the order in the bucket is
  irrelevant.
-/

namespace Warp17
namespace BucketTables

universe u v

variable {β : Type u} {ι : Type v}

/-- Put an entry in front of a bucket. -/
def insertHead [DecidableEq β] (table : β → List ι) (b : β) (t : ι) : β → List ι :=
  Function.update table b (t :: table b)

/-- Remove an entry from a bucket. -/
def removeFrom [DecidableEq β] [DecidableEq ι] (table : β → List ι) (b : β) (t : ι) : β → List ι :=
  Function.update table b ((table b).erase t)

/-- The buckets contain the entries that are present, each once and in its own bucket. -/
structure Holds (table : β → List ι) (present : ι → Prop) (slot : ι → β) : Prop where
  mem : ∀ b t, t ∈ table b ↔ present t ∧ slot t = b
  nodup : ∀ b, (table b).Nodup

variable {table : β → List ι} {present present' : ι → Prop} {slot slot' : ι → β}

/-- Nothing is present in empty buckets. -/
theorem holds_empty
    (h : ∀ t, ¬ present t) :
    Holds (fun _ : β => []) present slot :=
  ⟨fun _ t => ⟨fun ht => absurd ht (by simp), fun ht => absurd ht.1 (h t)⟩, fun _ => by simp⟩

/-- Only the entries that are present matter. -/
theorem Holds.congr
    (h : Holds table present slot)
    (hpresent : ∀ t, present' t ↔ present t)
    (hslot : ∀ t, present t → slot' t = slot t) :
    Holds table present' slot' := by
  refine ⟨fun b t => ?_, h.nodup⟩
  rw [h.mem b t, hpresent t]
  constructor
  · rintro ⟨ht, hb⟩
    exact ⟨ht, (hslot t ht).trans hb⟩
  · rintro ⟨ht, hb⟩
    exact ⟨ht, (hslot t ht).symm.trans hb⟩

/-- A new entry in front of its bucket. -/
theorem Holds.insert
    [DecidableEq β] {t : ι}
    (h : Holds table present slot)
    (hnew : ¬ present t)
    (ht : present' t)
    (hpresent : ∀ u, u ≠ t → (present' u ↔ present u))
    (hslot : ∀ u, u ≠ t → slot' u = slot u) :
    Holds (insertHead table (slot' t) t) present' slot' := by
  have hnotin : ∀ b, t ∉ table b := fun b hmem => hnew ((h.mem b t).1 hmem).1
  refine ⟨fun b u => ?_, fun b => ?_⟩
  · by_cases hb : b = slot' t
    · subst hb
      rw [insertHead, Function.update_self, List.mem_cons]
      by_cases hu : u = t
      · subst hu
        simp [ht]
      · simp [hu, h.mem, hpresent u hu, hslot u hu]
    · rw [insertHead, Function.update_of_ne hb]
      by_cases hu : u = t
      · subst hu
        simp [hnotin b, Ne.symm hb]
      · rw [h.mem, hpresent u hu, hslot u hu]
  · by_cases hb : b = slot' t
    · subst hb
      rw [insertHead, Function.update_self]
      exact List.nodup_cons.2 ⟨hnotin _, h.nodup _⟩
    · rw [insertHead, Function.update_of_ne hb]
      exact h.nodup b

/-- An entry is removed from its bucket. -/
theorem Holds.remove
    [DecidableEq β] [DecidableEq ι] {t : ι}
    (h : Holds table present slot)
    (ht : ¬ present' t)
    (hpresent : ∀ u, u ≠ t → (present' u ↔ present u)) :
    Holds (removeFrom table (slot t) t) present' slot := by
  refine ⟨fun b u => ?_, fun b => ?_⟩
  · by_cases hb : b = slot t
    · subst hb
      rw [removeFrom, Function.update_self, (h.nodup _).mem_erase_iff]
      by_cases hu : u = t
      · subst hu
        simp [ht]
      · simp [hu, h.mem, hpresent u hu]
    · rw [removeFrom, Function.update_of_ne hb, h.mem]
      by_cases hu : u = t
      · subst hu
        simp [ht, Ne.symm hb]
      · rw [hpresent u hu]
  · by_cases hb : b = slot t
    · subst hb
      rw [removeFrom, Function.update_self]
      exact (h.nodup _).erase t
    · rw [removeFrom, Function.update_of_ne hb]
      exact h.nodup b

/-- A search for at most one entry finds it exactly when it is present. -/
theorem Holds.find_iff
    {b : β} {p : ι → Bool} {t : ι}
    (h : Holds table present slot)
    (hunique :
      ∀ u u', present u → present u' → slot u = b → slot u' = b → p u = true → p u' = true →
        u = u') :
    (table b).find? p = some t ↔ present t ∧ slot t = b ∧ p t = true := by
  constructor
  · intro hfind
    obtain ⟨hp, hbt⟩ := (h.mem b t).1 (List.mem_of_find?_eq_some hfind)
    exact ⟨hp, hbt, List.find?_some hfind⟩
  · rintro ⟨ht, hbt, hpt⟩
    cases hfind : (table b).find? p with
    | none =>
        have hnone := List.find?_eq_none.1 hfind t ((h.mem b t).2 ⟨ht, hbt⟩)
        exact absurd hpt hnone
    | some u =>
        obtain ⟨hu, hbu⟩ := (h.mem b u).1 (List.mem_of_find?_eq_some hfind)
        rw [hunique u t hu ht hbu hbt (List.find?_some hfind) hpt]

end BucketTables
end Warp17
