import Mathlib.Tactic

/-!
# Tables of slots

A table is a row of slots, some of them live.  An update scans the row for the first live slot
that it hits and remembers the first free slot on its way; a delete clears the first live slot
that it hits.  A table is to stand for a map from keys to values.

**Results**
- `updateSlot_isMap`: when an update that takes the free slot before the slot it hit keeps the
  table a map.
- `clearSlot_isMap`: when a delete keeps the table a map.
-/

namespace Warp17
namespace SlotTables

universe u v w

variable {α : Type u} {κ : Type v} {ν : Type w}

section Scans

/-- What a scan found: a live slot that it hit, and a free slot before it. -/
structure Scan where
  found : Option Nat
  free : Option Nat
deriving DecidableEq, Repr

/-- Scan the slots from a number on. -/
def scanFrom (live hit : α → Bool) : Nat → List α → Option Nat → Scan
  | _, [], free => { found := none, free := free }
  | i, e :: rest, free =>
      if live e then
        if hit e then
          { found := some i, free := free }
        else
          scanFrom live hit (i + 1) rest free
      else
        scanFrom live hit (i + 1) rest (free.or (some i))

/-- Scan a table. -/
def scan (live hit : α → Bool) (t : List α) : Scan :=
  scanFrom live hit 0 t none

/-- Take the free slot that a scan found, else the slot that it hit. -/
def updateSlot (live hit : α → Bool) (fill overwrite : α → α) (t : List α) : Bool × List α :=
  match (scan live hit t).free, (scan live hit t).found with
  | some f, _ => (true, t.modify f fill)
  | none, some m => (true, t.modify m overwrite)
  | none, none => (false, t)

/-- Clear the first live slot that is hit. -/
def clearSlot (live hit : α → Bool) (clear : α → α) (t : List α) : Bool × List α :=
  match t.findIdx? (fun e => live e && hit e) with
  | some i => (true, t.modify i clear)
  | none => (false, t)

/-- The first live slot that is hit. -/
def firstHit (live hit : α → Bool) (t : List α) : Option α :=
  t.find? fun e => live e && hit e

/-- A free slot comes before the first live slot that is hit. -/
def freeBefore (live hit : α → Bool) (t : List α) : Bool :=
  (t.takeWhile fun e => !(live e && hit e)).any fun e => !live e

theorem scanFrom_eq
    (live hit : α → Bool) (i : Nat) (t : List α) (free : Option Nat) :
    scanFrom live hit i t free =
      { found := (t.findIdx? fun e => live e && hit e).map (· + i)
        free := free.or
          (((t.takeWhile fun e => !(live e && hit e)).findIdx? fun e => !live e).map
            (· + i)) } := by
  induction t generalizing i free with
  | nil =>
      simp [scanFrom]
  | cons e rest ih =>
      have hshift : ∀ o : Option Nat, (o.map (· + 1)).map (· + i) = o.map (· + (i + 1)) := by
        intro o
        cases o <;> simp [Nat.add_comm, Nat.add_left_comm]
      cases hlive : live e with
      | false =>
          simp [scanFrom, hlive, ih, List.findIdx?_cons, hshift]
      | true =>
          cases hhit : hit e with
          | true =>
              simp [scanFrom, hlive, hhit, List.findIdx?_cons]
          | false =>
              simp [scanFrom, hlive, hhit, ih, List.findIdx?_cons, hshift]

/-- The slot with a number, and the ones around it. -/
theorem exists_of_findIdx?
    {p : α → Bool} {t : List α} {i : Nat}
    (h : t.findIdx? p = some i) :
    ∃ pre e post, t = pre ++ e :: post ∧ pre.length = i ∧ p e = true ∧
      t.find? p = some e := by
  induction t generalizing i with
  | nil =>
      simp at h
  | cons x rest ih =>
      rw [List.findIdx?_cons] at h
      cases hx : p x with
      | true =>
          rw [hx, if_pos rfl, Option.some.injEq] at h
          exact ⟨[], x, rest, rfl, h, hx, by rw [List.find?_cons, hx]⟩
      | false =>
          rw [hx, if_neg Bool.false_ne_true, Option.map_eq_some_iff] at h
          obtain ⟨j, hj, rfl⟩ := h
          obtain ⟨pre, e, post, rfl, rfl, he, hfind⟩ := ih hj
          exact ⟨x :: pre, e, post, rfl, rfl, he, by rw [List.find?_cons, hx, hfind]⟩

theorem modify_middle
    (f : α → α) (pre : List α) (e : α) (post : List α) :
    (pre ++ e :: post).modify pre.length f = pre ++ f e :: post := by
  induction pre with
  | nil =>
      rfl
  | cons x pre ih =>
      rw [List.cons_append, List.length_cons, List.modify_succ_cons, ih, List.cons_append]

theorem mem_modify
    {f : α → α} {i : Nat} {t : List α} {x : α}
    (hx : x ∈ t.modify i f) :
    x ∈ t ∨ ∃ e, t[i]? = some e ∧ x = f e := by
  induction t generalizing i with
  | nil =>
      simp at hx
  | cons y rest ih =>
      cases i with
      | zero =>
          rcases List.mem_cons.1 hx with rfl | hx
          · exact .inr ⟨y, rfl, rfl⟩
          · exact .inl (List.mem_cons_of_mem _ hx)
      | succ i =>
          rw [List.modify_succ_cons] at hx
          rcases List.mem_cons.1 hx with rfl | hx
          · exact .inl List.mem_cons_self
          · exact (ih hx).imp (List.mem_cons_of_mem _) id

/-- What an update leaves in the table. -/
theorem mem_updateSlot
    {live hit : α → Bool} {fill overwrite : α → α} {t : List α} {x : α}
    (hx : x ∈ (updateSlot live hit fill overwrite t).2) :
    x ∈ t ∨ (∃ e, x = fill e) ∨ ∃ e, hit e = true ∧ x = overwrite e := by
  rw [updateSlot, scan, scanFrom_eq] at hx
  dsimp only at hx
  split at hx
  · obtain hx | ⟨e, -, rfl⟩ := mem_modify hx
    · exact .inl hx
    · exact .inr (.inl ⟨e, rfl⟩)
  · rename_i hfound
    obtain hx | ⟨e, he, rfl⟩ := mem_modify hx
    · exact .inl hx
    · rw [Option.map_eq_some_iff] at hfound
      obtain ⟨i, hi, rfl⟩ := hfound
      obtain ⟨pre, e', post, rfl, rfl, hhit, -⟩ := exists_of_findIdx? hi
      rw [Nat.add_zero, List.getElem?_append_right (Nat.le_refl _), Nat.sub_self,
        List.getElem?_cons_zero, Option.some.injEq] at he
      subst he
      exact .inr (.inr ⟨_, (Bool.and_eq_true _ _ ▸ hhit).2, rfl⟩)
  · exact .inl hx

/-- An update writes over a live slot that it hit. -/
theorem mem_updateSlot_live
    {live hit : α → Bool} {fill overwrite : α → α} {t : List α} {x : α}
    (hx : x ∈ (updateSlot live hit fill overwrite t).2) :
    x ∈ t ∨ (∃ e, x = fill e) ∨
      ∃ e ∈ t, live e = true ∧ hit e = true ∧ x = overwrite e := by
  rw [updateSlot, scan, scanFrom_eq] at hx
  dsimp only at hx
  split at hx
  · obtain hx | ⟨e, -, rfl⟩ := mem_modify hx
    · exact .inl hx
    · exact .inr (.inl ⟨e, rfl⟩)
  · rename_i hfound
    obtain hx | ⟨e, he, rfl⟩ := mem_modify hx
    · exact .inl hx
    · rw [Option.map_eq_some_iff] at hfound
      obtain ⟨i, hi, rfl⟩ := hfound
      obtain ⟨pre, e', post, rfl, rfl, hhit, -⟩ := exists_of_findIdx? hi
      have hmem := List.mem_of_getElem? he
      rw [Nat.add_zero, List.getElem?_append_right (Nat.le_refl _), Nat.sub_self,
        List.getElem?_cons_zero, Option.some.injEq] at he
      subst he
      rw [Bool.and_eq_true] at hhit
      exact .inr (.inr ⟨_, hmem, hhit.1, hhit.2, rfl⟩)
  · exact .inl hx

/-- What a delete leaves in the table. -/
theorem mem_clearSlot
    {live hit : α → Bool} {clear : α → α} {t : List α} {x : α}
    (hx : x ∈ (clearSlot live hit clear t).2) :
    x ∈ t ∨ ∃ e, x = clear e := by
  rw [clearSlot] at hx
  split at hx
  · exact (mem_modify hx).imp_right fun ⟨e, _, he⟩ => ⟨e, he⟩
  · exact .inl hx

theorem clearSlot_of_false
    {live hit : α → Bool} {clear : α → α} {t : List α}
    (h : (clearSlot live hit clear t).1 = false) :
    (clearSlot live hit clear t).2 = t := by
  rw [clearSlot] at h ⊢
  split at h
  · cases h
  · rfl

end Scans

section Maps

/-- Which slots are live, and what they hold. -/
structure Layout (α : Type u) (κ : Type v) (ν : Type w) where
  live : α → Bool
  key : α → κ
  val : α → ν

variable [DecidableEq κ] (L : Layout α κ ν)

/-- The value of the first live slot with a key. -/
def Layout.lookup (t : List α) (k : κ) : Option ν :=
  (t.find? fun e => L.live e && decide (L.key e = k)).map L.val

/-- No two live slots have one key. -/
def Layout.Distinct (t : List α) : Prop :=
  ((t.filter L.live).map L.key).Nodup

/-- The table stands for a map. -/
structure Layout.IsMap (t : List α) (m : κ → Option ν) : Prop where
  distinct : L.Distinct t
  lookup : L.lookup t = m

variable {L}
variable {pre post : List α} {e e' : α} {k : κ} {v : ν} {m : κ → Option ν}

theorem lookup_eq_none
    {t : List α} :
    L.lookup t k = none ↔ ∀ x ∈ t, L.live x = true → L.key x ≠ k := by
  simp [Layout.lookup, Option.map_eq_none_iff]

/-- A table without live slots is the empty map. -/
theorem isMap_empty
    {t : List α}
    (h : ∀ x ∈ t, L.live x = false) :
    L.IsMap t fun _ => none := by
  constructor
  · rw [Layout.Distinct, List.filter_eq_nil_iff.2]
    · exact List.nodup_nil
    · intro x hx
      simp [h x hx]
  · funext k
    refine lookup_eq_none.2 fun x hx hlive => ?_
    rw [h x hx] at hlive
    cases hlive

/-- A slot makes the keys of a table no map only by its own key. -/
theorem distinct_middle :
    L.Distinct (pre ++ e :: post) ↔
      L.Distinct (pre ++ post) ∧
        (L.live e = true → L.lookup (pre ++ post) (L.key e) = none) := by
  have hfront : (pre ++ e :: post).Perm (e :: (pre ++ post)) := List.perm_middle
  rw [Layout.Distinct, Layout.Distinct, ((hfront.filter L.live).map L.key).nodup_iff]
  cases hlive : L.live e with
  | false =>
      simp [hlive]
  | true =>
      rw [List.filter_cons, if_pos hlive, List.map_cons, List.nodup_cons, and_comm]
      refine and_congr Iff.rfl ?_
      rw [lookup_eq_none]
      simp only [List.mem_map, List.mem_filter, not_exists, not_and, forall_const]
      exact ⟨fun h x hx hl heq => h x ⟨hx, hl⟩ heq, fun h x hx heq => h x hx.1 hx.2 heq⟩

/-- What a slot adds to the map of the others. -/
theorem lookup_middle
    (h : L.live e = true → L.lookup (pre ++ post) (L.key e) = none) :
    L.lookup (pre ++ e :: post) k =
      if L.live e = true ∧ L.key e = k then some (L.val e) else L.lookup (pre ++ post) k := by
  by_cases hhit : L.live e = true ∧ L.key e = k
  · obtain ⟨hlive, rfl⟩ := hhit
    have hpre : pre.find? (fun x => L.live x && decide (L.key x = L.key e)) = none := by
      rw [List.find?_eq_none]
      intro x hx
      have hne := lookup_eq_none.1 (h hlive) x (List.mem_append_left _ hx)
      simpa using hne
    rw [if_pos ⟨hlive, rfl⟩, Layout.lookup, List.find?_append, hpre, Option.none_or,
      List.find?_cons, hlive, decide_eq_true rfl]
    rfl
  · have hskip : (L.live e && decide (L.key e = k)) = false := by
      simpa [Bool.and_eq_false_iff, Classical.or_iff_not_imp_left] using hhit
    rw [if_neg hhit, Layout.lookup, Layout.lookup, List.find?_append, List.find?_append,
      List.find?_cons, hskip]

theorem isMap_free
    (hfree : L.live e = false) :
    L.IsMap (pre ++ e :: post) m ↔ L.IsMap (pre ++ post) m := by
  have hnot : ¬ L.live e = true := by simp [hfree]
  have hlookup : L.lookup (pre ++ e :: post) = L.lookup (pre ++ post) := by
    funext k
    rw [lookup_middle fun hlive => absurd hlive hnot, if_neg fun h => hnot h.1]
  constructor
  · rintro ⟨hd, hl⟩
    exact ⟨(distinct_middle.1 hd).1, hlookup ▸ hl⟩
  · rintro ⟨hd, hl⟩
    exact ⟨distinct_middle.2 ⟨hd, fun hlive => absurd hlive hnot⟩, hlookup ▸ hl⟩

theorem isMap_live
    (hlive : L.live e = true) :
    L.IsMap (pre ++ e :: post) m ↔
      m (L.key e) = some (L.val e) ∧
        L.IsMap (pre ++ post) (Function.update m (L.key e) none) := by
  constructor
  · rintro ⟨hd, rfl⟩
    obtain ⟨hd, hnone⟩ := distinct_middle.1 hd
    refine ⟨by rw [lookup_middle hnone, if_pos ⟨hlive, rfl⟩], hd, ?_⟩
    funext k
    by_cases hk : k = L.key e
    · subst hk
      rw [Function.update_self, hnone hlive]
    · rw [Function.update_of_ne hk, lookup_middle hnone, if_neg fun h => hk h.2.symm]
  · rintro ⟨hval, hd, hl⟩
    have hnone : L.live e = true → L.lookup (pre ++ post) (L.key e) = none := by
      intro _
      rw [hl, Function.update_self]
    refine ⟨distinct_middle.2 ⟨hd, hnone⟩, ?_⟩
    funext k
    rw [lookup_middle hnone]
    by_cases hk : L.key e = k
    · subst hk
      rw [if_pos ⟨hlive, rfl⟩, hval]
    · rw [if_neg fun h => hk h.2, hl, Function.update_of_ne (Ne.symm hk)]

/-- A free slot is filled. -/
theorem isMap_fill
    (e' : α)
    (h : L.IsMap (pre ++ e :: post) m)
    (hfree : L.live e = false)
    (hlive : L.live e' = true) :
    L.IsMap (pre ++ e' :: post) (Function.update m (L.key e') (some (L.val e'))) ↔
      m (L.key e') = none := by
  have hothers := (isMap_free hfree).1 h
  rw [isMap_live hlive, Function.update_self, Function.update_idem]
  constructor
  · rintro ⟨-, hmap⟩
    rw [← hothers.lookup, hmap.lookup, Function.update_self]
  · intro hnone
    rw [← hnone, Function.update_eq_self]
    exact ⟨rfl, hothers⟩

/-- A live slot is overwritten. -/
theorem isMap_overwrite
    (e' : α)
    (h : L.IsMap (pre ++ e :: post) m)
    (hlive : L.live e = true)
    (hlive' : L.live e' = true) :
    L.IsMap (pre ++ e' :: post) (Function.update m (L.key e') (some (L.val e'))) ↔
      L.key e = L.key e' := by
  obtain ⟨hval, hothers⟩ := (isMap_live hlive).1 h
  rw [isMap_live hlive', Function.update_self, Function.update_idem]
  constructor
  · rintro ⟨-, hmap⟩
    by_contra hne
    have hsame := congrFun (hothers.lookup.symm.trans hmap.lookup) (L.key e)
    rw [Function.update_self, Function.update_of_ne hne, hval] at hsame
    cases hsame
  · intro hkey
    exact ⟨rfl, hkey ▸ hothers⟩

/-- A live slot is cleared. -/
theorem isMap_clear
    (h : L.IsMap (pre ++ e :: post) m)
    (hlive : L.live e = true)
    (hfree : L.live e' = false) :
    L.IsMap (pre ++ e' :: post) (Function.update m k none) ↔ L.key e = k := by
  obtain ⟨hval, hothers⟩ := (isMap_live hlive).1 h
  rw [isMap_free hfree]
  constructor
  · intro hmap
    by_contra hne
    have hsame := congrFun (hothers.lookup.symm.trans hmap.lookup) (L.key e)
    rw [Function.update_self, Function.update_of_ne hne, hval] at hsame
    cases hsame
  · intro hkey
    exact hkey ▸ hothers

/-- When an update of a key keeps a map. -/
def Layout.UpdateMeets (L : Layout α κ ν) (hit : α → Bool) (t : List α) (k : κ) : Prop :=
  match firstHit L.live hit t with
  | none => True
  | some e => if freeBefore L.live hit t then L.lookup t k = none else L.key e = k

/-- When a delete of a key keeps a map. -/
def Layout.DeleteMeets (L : Layout α κ ν) (hit : α → Bool) (t : List α) (k : κ) : Prop :=
  match firstHit L.live hit t with
  | none => True
  | some e => L.key e = k

instance Layout.decidableUpdateMeets (hit : α → Bool) (t : List α) (k : κ) :
    Decidable (L.UpdateMeets hit t k) := by
  unfold Layout.UpdateMeets
  cases firstHit L.live hit t <;> infer_instance

instance Layout.decidableDeleteMeets (hit : α → Bool) (t : List α) (k : κ) :
    Decidable (L.DeleteMeets hit t k) := by
  unfold Layout.DeleteMeets
  cases firstHit L.live hit t <;> infer_instance

theorem firstHit_eq_none
    {live hit : α → Bool} {t : List α} :
    firstHit live hit t = none ↔ ∀ x ∈ t, live x = true → hit x = false := by
  simp [firstHit]

theorem firstHit_of_findIdx?
    {live hit : α → Bool} {t : List α}
    (h : (t.findIdx? fun e => live e && hit e) = none) :
    firstHit live hit t = none := by
  rw [List.findIdx?_eq_none_iff] at h
  rw [firstHit, List.find?_eq_none]
  simpa using h

/-- An update keeps the map exactly when its condition is met. -/
theorem updateSlot_isMap
    {hit : α → Bool} {fill overwrite : α → α} {t : List α}
    (h : L.IsMap t m)
    (hkey : ∀ x, L.key x = k → hit x = true)
    (hfill : ∀ x, L.live x = false →
      L.live (fill x) = true ∧ L.key (fill x) = k ∧ L.val (fill x) = v)
    (hover : ∀ x, L.live x = true → hit x = true →
      L.live (overwrite x) = true ∧ L.key (overwrite x) = k ∧ L.val (overwrite x) = v) :
    L.IsMap (updateSlot L.live hit fill overwrite t).2
        (if (updateSlot L.live hit fill overwrite t).1 then Function.update m k (some v)
          else m) ↔
      L.UpdateMeets hit t k := by
  have hscan := scanFrom_eq L.live hit 0 t none
  simp only [Nat.add_zero, Option.map_id', Option.none_or] at hscan
  rw [updateSlot, scan, hscan, Layout.UpdateMeets]
  dsimp only
  cases hfree : (t.takeWhile fun e => !(L.live e && hit e)).findIdx? fun e => !L.live e with
  | some f =>
      obtain ⟨pre, e, post, htake, rfl, hdead, -⟩ := exists_of_findIdx? hfree
      have hdead : L.live e = false := by simpa using hdead
      have hbefore : freeBefore L.live hit t = true := by
        rw [freeBefore, htake]
        simp [hdead]
      obtain ⟨tail, htail⟩ := List.takeWhile_prefix (fun e => !(L.live e && hit e)) (l := t)
      have ht : t = pre ++ e :: (post ++ tail) := by
        rw [← htail, htake, List.append_assoc, List.cons_append]
      obtain ⟨hlive, hk, hv⟩ := hfill e hdead
      have hmap := isMap_fill (fill e) (ht ▸ h) hdead hlive
      rw [hk, hv] at hmap
      dsimp only
      rw [if_pos rfl, hbefore, h.lookup]
      nth_rewrite 1 [ht]
      rw [modify_middle, hmap]
      cases hhit : firstHit L.live hit t with
      | none =>
          refine iff_of_true ?_ trivial
          rw [← h.lookup, lookup_eq_none]
          intro x hx hl hxk
          have hmiss := firstHit_eq_none.1 hhit x hx hl
          rw [hkey x hxk] at hmiss
          cases hmiss
      | some x =>
          exact Iff.rfl
  | none =>
      have hbefore : freeBefore L.live hit t = false := by
        rw [List.findIdx?_eq_none_iff] at hfree
        rw [freeBefore, List.any_eq_false]
        simpa using hfree
      cases hfound : t.findIdx? fun e => L.live e && hit e with
      | none =>
          rw [firstHit_of_findIdx? hfound]
          exact iff_of_true h trivial
      | some i =>
          obtain ⟨pre, e, post, rfl, rfl, he, hfind⟩ := exists_of_findIdx? hfound
          rw [Bool.and_eq_true] at he
          obtain ⟨hlive, hk, hv⟩ := hover e he.1 he.2
          have hmap := isMap_overwrite (overwrite e) h he.1 hlive
          rw [hk, hv] at hmap
          dsimp only
          rw [modify_middle, if_pos rfl, hmap, firstHit, hfind, hbefore]
          exact Iff.rfl

/-- A delete keeps the map exactly when its condition is met. -/
theorem clearSlot_isMap
    {hit : α → Bool} {clear : α → α} {t : List α}
    (h : L.IsMap t m)
    (hkey : ∀ x, L.key x = k → hit x = true)
    (hclear : ∀ x, L.live (clear x) = false) :
    L.IsMap (clearSlot L.live hit clear t).2 (Function.update m k none) ↔
      L.DeleteMeets hit t k := by
  rw [clearSlot, Layout.DeleteMeets]
  cases hfound : t.findIdx? fun e => L.live e && hit e with
  | none =>
      have hmiss := firstHit_of_findIdx? hfound
      have hnone : m k = none := by
        rw [← h.lookup, lookup_eq_none]
        intro x hx hl hxk
        have hno := firstHit_eq_none.1 hmiss x hx hl
        rw [hkey x hxk] at hno
        cases hno
      rw [hmiss, ← hnone, Function.update_eq_self]
      exact iff_of_true h trivial
  | some i =>
      obtain ⟨pre, e, post, rfl, rfl, he, hfind⟩ := exists_of_findIdx? hfound
      rw [Bool.and_eq_true] at he
      dsimp only
      rw [modify_middle, isMap_clear h he.1 (hclear e), firstHit, hfind]

end Maps

end SlotTables
end Warp17
