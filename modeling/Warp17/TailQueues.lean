import Mathlib.Data.List.Nodup
import Mathlib.Logic.Function.Basic
import Mathlib.Tactic

/-!
# Tail queues

Doubly linked lists in the manner of `TAILQ`: a head points to the first element and to the
forward pointer that ends the list, an element points to the next element and to the forward
pointer that points to itself.  Several heads share the elements, and an element has one pair
of pointers, so it can be on one list at a time.

Insertion and removal are the assignments of the macros, in their order.  They look at nothing
but the pointers: an element that is not on the list it is removed from, or that is inserted
while it is on a list, leaves pointers that represent no lists.

**Results**
- `IsTailq.nodup`: a list that ends has no element twice.
- `Placed.insertTail`, `Placed.remove`: every head has the list of the elements that are placed
  with it, and insertion and removal move one element.
- `tailqRemove_head`: which head is passed matters only for the last element.
-/

namespace Warp17
namespace TailQueues

universe u v

/-- A forward pointer: `tqh_first` of a head or `tqe_next` of an element. -/
inductive Cell (κ : Type u) (α : Type v)
  | first (q : κ)
  | next (a : α)
deriving DecidableEq

/-- The pointers of all heads and elements. -/
structure Tailqs (κ : Type u) (α : Type v) where
  /-- what a forward pointer points to -/
  ptr : Cell κ α → Option α
  /-- `tqh_last` -/
  last : κ → Cell κ α
  /-- `tqe_prev` -/
  prev : α → Cell κ α

section Operations

variable {κ : Type u} {α : Type v} [DecidableEq κ] [DecidableEq α]

/-- `TAILQ_FIRST` -/
def tailqFirst (m : Tailqs κ α) (q : κ) : Option α :=
  m.ptr (.first q)

/-- `TAILQ_INIT` for every head; the pointers of the elements are not set. -/
def tailqInit (m : Tailqs κ α) : Tailqs κ α :=
  { m with
    ptr := fun
      | .first _ => none
      | .next a => m.ptr (.next a)
    last := .first }

/-- `TAILQ_INSERT_TAIL` -/
def tailqInsertTail (m : Tailqs κ α) (q : κ) (a : α) : Tailqs κ α :=
  let m := { m with ptr := Function.update m.ptr (.next a) none }
  let m := { m with prev := Function.update m.prev a (m.last q) }
  let m := { m with ptr := Function.update m.ptr (m.last q) (some a) }
  { m with last := Function.update m.last q (.next a) }

/-- `TAILQ_REMOVE` -/
def tailqRemove (m : Tailqs κ α) (q : κ) (a : α) : Tailqs κ α :=
  let m :=
    match m.ptr (.next a) with
    | some b => { m with prev := Function.update m.prev b (m.prev a) }
    | none => { m with last := Function.update m.last q (m.prev a) }
  { m with ptr := Function.update m.ptr (m.prev a) (m.ptr (.next a)) }

/-- An element with a next one is taken out by the pointers of its neighbours. -/
theorem tailqRemove_of_next
    {m : Tailqs κ α} {a b : α}
    (q : κ)
    (hnext : m.ptr (.next a) = some b) :
    tailqRemove m q a =
      { m with
        prev := Function.update m.prev b (m.prev a)
        ptr := Function.update m.ptr (m.prev a) (some b) } := by
  have hback : Function.update m.prev b (m.prev a) a = m.prev a := by
    rw [Function.update_apply]
    split <;> rfl
  simp only [tailqRemove, hnext, hback]

/-- Which head is passed matters only for the last element. -/
theorem tailqRemove_head
    {m : Tailqs κ α} {a b : α}
    (hnext : m.ptr (.next a) = some b)
    (q q' : κ) :
    tailqRemove m q a = tailqRemove m q' a := by
  rw [tailqRemove_of_next q hnext, tailqRemove_of_next q' hnext]

end Operations

section Lists

variable {κ : Type u} {α : Type v} {m m' : Tailqs κ α} {c d e : Cell κ α} {l l' : List α} {a : α}

/-- The pointers lead from one forward pointer through a list of elements to another one. -/
inductive Linked (m : Tailqs κ α) : Cell κ α → List α → Cell κ α → Prop
  | nil (c : Cell κ α) : Linked m c [] c
  | cons {c e : Cell κ α} {a : α} {l : List α}
      (hptr : m.ptr c = some a)
      (hprev : m.prev a = c)
      (htail : Linked m (.next a) l e) :
      Linked m c (a :: l) e

/-- The forward pointers on the way. -/
def cells (c : Cell κ α) (l : List α) : List (Cell κ α) :=
  c :: l.map .next

theorem Linked.append
    (h : Linked m c l d)
    (h' : Linked m d l' e) :
    Linked m c (l ++ l') e := by
  induction h with
  | nil =>
      exact h'
  | cons hptr hprev _ ih =>
      exact .cons hptr hprev (ih h')

/-- The way through a concatenation passes between its parts. -/
theorem Linked.split
    (h : Linked m c (l ++ l') e) :
    ∃ d, Linked m c l d ∧ Linked m d l' e := by
  induction l generalizing c with
  | nil =>
      exact ⟨c, .nil c, h⟩
  | cons a l ih =>
      cases h with
      | cons hptr hprev htail =>
          obtain ⟨d, hd, hrest⟩ := ih htail
          exact ⟨d, .cons hptr hprev hd, hrest⟩

theorem Linked.end_mem
    (h : Linked m c l e) :
    e ∈ cells c l := by
  induction h with
  | nil =>
      simp [cells]
  | cons _ _ _ ih =>
      exact List.mem_cons_of_mem _ ih

/-- Two ways from one pointer that both end are the same. -/
theorem Linked.unique
    (h : Linked m c l e)
    (h' : Linked m c l' d)
    (he : m.ptr e = none)
    (hd : m.ptr d = none) :
    l = l' := by
  induction h generalizing l' with
  | nil c =>
      cases h' with
      | nil =>
          rfl
      | cons hptr _ _ =>
          rw [he] at hptr
          cases hptr
  | cons hptr _ _ ih =>
      cases h' with
      | nil =>
          rw [hd] at hptr
          cases hptr
      | cons hptr' _ htail' =>
          rw [hptr] at hptr'
          cases hptr'
          rw [ih htail' he]

theorem Linked.nodup
    (h : Linked m c l e)
    (he : m.ptr e = none) :
    l.Nodup := by
  induction h with
  | nil =>
      exact List.nodup_nil
  | @cons c e a l _ _ htail ih =>
      refine List.nodup_cons.2 ⟨fun hmem => ?_, ih he⟩
      obtain ⟨s, t, rfl⟩ := List.append_of_mem hmem
      obtain ⟨d, -, hrest⟩ := htail.split
      cases hrest with
      | cons _ _ htail' =>
          have hsame := congrArg List.length (htail.unique htail' he he)
          simp at hsame
          omega

/-- A way is kept when the pointers on it are, but for the one it ends at. -/
theorem Linked.congr
    (h : Linked m c l e)
    (hnodup : (cells c l).Nodup)
    (hptr : ∀ d ∈ cells c l, d ≠ e → m'.ptr d = m.ptr d)
    (hprev : ∀ x ∈ l, m'.prev x = m.prev x) :
    Linked m' c l e := by
  induction h with
  | nil c =>
      exact .nil c
  | @cons c e a l hat hback htail ih =>
      obtain ⟨hfresh, hrest⟩ := List.nodup_cons.1 hnodup
      have hne : c ≠ e := fun heq => hfresh (heq ▸ htail.end_mem)
      refine .cons ((hptr c List.mem_cons_self hne).trans hat)
        ((hprev a List.mem_cons_self).trans hback) ?_
      exact ih hrest (fun d hd => hptr d (List.mem_cons_of_mem _ hd))
        fun x hx => hprev x (List.mem_cons_of_mem _ hx)

/-- The list of a head. -/
structure IsTailq (m : Tailqs κ α) (q : κ) (l : List α) : Prop where
  linked : Linked m (.first q) l (m.last q)
  ends : m.ptr (m.last q) = none

variable {q q' : κ}

theorem IsTailq.nodup
    (h : IsTailq m q l) :
    l.Nodup :=
  h.linked.nodup h.ends

theorem nodup_cells
    (q : κ)
    (h : l.Nodup) :
    (cells (.first q) l).Nodup := by
  refine List.nodup_cons.2 ⟨by simp, ?_⟩
  exact h.map fun _ _ heq => Cell.next.inj heq

theorem IsTailq.first
    (h : IsTailq m q l) :
    tailqFirst m q = l.head? := by
  obtain ⟨hlinked, hends⟩ := h
  unfold tailqFirst
  generalize m.last q = e at hlinked hends
  cases hlinked with
  | nil =>
      exact hends
  | cons hptr _ _ =>
      exact hptr

/-- A list whose pointers are kept. -/
theorem IsTailq.congr
    (h : IsTailq m q l)
    (hptr : ∀ d ∈ cells (.first q) l, m'.ptr d = m.ptr d)
    (hprev : ∀ x ∈ l, m'.prev x = m.prev x)
    (hlast : m'.last q = m.last q) :
    IsTailq m' q l := by
  refine ⟨?_, ?_⟩
  · rw [hlast]
    exact h.linked.congr (nodup_cells q h.nodup) (fun d hd _ => hptr d hd) hprev
  · rw [hlast, hptr _ h.linked.end_mem]
    exact h.ends

theorem mem_cells_next :
    .next a ∈ cells (.first q) l ↔ a ∈ l := by
  simp [cells]

/-- The forward pointers of lists with different heads and different elements. -/
theorem cells_disjoint
    (hq : q ≠ q')
    (hdisj : l.Disjoint l')
    (hd : d ∈ cells (.first q) l) :
    d ∉ cells (.first q') l' := by
  intro hd'
  cases d with
  | first q₀ =>
      simp only [cells, List.mem_cons, Cell.first.injEq, List.mem_map, reduceCtorEq, and_false,
        exists_false, or_false] at hd hd'
      exact hq (hd.symm.trans hd')
  | next x =>
      exact hdisj (mem_cells_next.1 hd) (mem_cells_next.1 hd')

end Lists

section Changes

variable {κ : Type u} {α : Type v} [DecidableEq κ] [DecidableEq α]
variable {m : Tailqs κ α} {l l' s t : List α} {a : α} {q q' : κ}

theorem IsTailq.insertTail
    (h : IsTailq m q l)
    (ha : a ∉ l) :
    IsTailq (tailqInsertTail m q a) q (l ++ [a]) := by
  have hend : m.last q ≠ .next a := fun heq => ha (mem_cells_next.1 (heq ▸ h.linked.end_mem))
  have hway : Linked (tailqInsertTail m q a) (.first q) l (m.last q) := by
    refine h.linked.congr (nodup_cells q h.nodup) (fun d hd hne => ?_) fun x hx => ?_
    · have hnext : d ≠ .next a := fun heq => ha (mem_cells_next.1 (heq ▸ hd))
      simp [tailqInsertTail, hne, hnext]
    · have hne : x ≠ a := fun heq => ha (heq ▸ hx)
      simp [tailqInsertTail, hne]
  have hlast : Linked (tailqInsertTail m q a) (m.last q) [a] (.next a) :=
    .cons (by simp [tailqInsertTail]) (by simp [tailqInsertTail]) (.nil _)
  refine ⟨?_, ?_⟩
  · simpa [tailqInsertTail] using hway.append hlast
  · simp [tailqInsertTail, hend.symm]

/-- The lists of the other heads are not touched. -/
theorem IsTailq.insertTail_other
    (h : IsTailq m q l)
    (h' : IsTailq m q' l')
    (hq : q ≠ q')
    (hdisj : l.Disjoint l')
    (ha : a ∉ l') :
    IsTailq (tailqInsertTail m q a) q' l' := by
  have hend := cells_disjoint hq hdisj h.linked.end_mem
  refine h'.congr (fun d hd => ?_) (fun x hx => ?_) ?_
  · have hnext : d ≠ .next a := fun heq => ha (mem_cells_next.1 (heq ▸ hd))
    have hlast : d ≠ m.last q := fun heq => hend (heq ▸ hd)
    simp [tailqInsertTail, hnext, hlast]
  · have hne : x ≠ a := fun heq => ha (heq ▸ hx)
    simp [tailqInsertTail, hne]
  · simp [tailqInsertTail, hq.symm]

/-- An element in the middle is taken out by the pointers of its neighbours. -/
theorem IsTailq.remove_inner
    {b : α}
    (h : IsTailq m q (s ++ a :: b :: t)) :
    IsTailq (tailqRemove m q a) q (s ++ b :: t) := by
  have hnodup := h.nodup
  obtain ⟨d, hs, hrest⟩ := h.linked.split
  cases hrest with
  | cons hat hback htail =>
      cases htail with
      | cons hat' hback' htail' =>
          have hcells : (cells (.first q) (s ++ a :: b :: t)).Nodup := nodup_cells q hnodup
          have hsplit : cells (.first q) (s ++ a :: b :: t) =
              cells (.first q) s ++ .next a :: cells (.next b) t := by
            simp [cells]
          rw [hsplit, List.nodup_append] at hcells
          have hnot : ∀ c ∈ cells (.next b) t, c ≠ d := fun c hc heq =>
            hcells.2.2 d hs.end_mem c (List.mem_cons_of_mem _ hc) heq.symm
          rw [tailqRemove_of_next q hat', hback]
          refine ⟨?_, ?_⟩
          · refine (hs.congr hcells.1 (fun c _ hne => ?_) fun x hx => ?_).append
              (.cons ?_ ?_ (htail'.congr ?_ (fun c hc _ => ?_) fun x hx => ?_))
            · simp [hne]
            · have hne : x ≠ b := by
                rintro rfl
                simp [List.nodup_append] at hnodup
                grind
              simp [hne]
            · simp
            · simp
            · exact (List.nodup_cons.1 hcells.2.1).2
            · simp [hnot c hc]
            · have hne : x ≠ b := by
                rintro rfl
                simp [List.nodup_append] at hnodup
                grind
              simp [hne]
          · have hlast : m.last q ≠ d := hnot _ htail'.end_mem
            simp [hlast, h.ends]

/-- The last element leaves the list to end where it began. -/
theorem IsTailq.remove_last
    (h : IsTailq m q (s ++ [a])) :
    IsTailq (tailqRemove m q a) q s := by
  obtain ⟨d, hs, hrest⟩ := h.linked.split
  have hends := h.ends
  have hnodup := (List.nodup_append.1 h.nodup).1
  generalize hlast : m.last q = e at hrest hends
  cases hrest with
  | cons hat hback htail =>
      cases htail
      have hremove : tailqRemove m q a =
          { m with
            last := Function.update m.last q d
            ptr := Function.update m.ptr d none } := by
        simp [tailqRemove, hends, hback]
      rw [hremove]
      refine ⟨?_, by simp⟩
      simp only [Function.update_self]
      exact hs.congr (nodup_cells q hnodup) (fun c _ hne => by simp [hne]) fun _ _ => rfl

theorem IsTailq.remove
    (h : IsTailq m q (s ++ a :: t)) :
    IsTailq (tailqRemove m q a) q (s ++ t) := by
  cases t with
  | nil =>
      simpa using h.remove_last
  | cons b t =>
      exact h.remove_inner

/-- The lists of the other heads are not touched. -/
theorem IsTailq.remove_other
    (h : IsTailq m q (s ++ a :: t))
    (h' : IsTailq m q' l')
    (hq : q ≠ q')
    (hdisj : (s ++ a :: t).Disjoint l') :
    IsTailq (tailqRemove m q a) q' l' := by
  obtain ⟨d, hs, hrest⟩ := h.linked.split
  have hd : d ∉ cells (.first q') l' := by
    refine cells_disjoint hq (fun x hx hx' => ?_) hs.end_mem
    exact hdisj (List.mem_append_left _ hx) hx'
  have hback : m.prev a = d := by
    cases hrest with
    | cons _ hback _ =>
        exact hback
  cases t with
  | nil =>
      have hlast : m.last q = .next a := by
        cases hrest with
        | cons _ _ htail =>
            generalize m.last q = e at htail
            cases htail
            rfl
      have hends := h.ends
      rw [hlast] at hends
      refine h'.congr (fun c hc => ?_) (fun x hx => ?_) ?_
      · have hne : c ≠ d := fun heq => hd (heq ▸ hc)
        simp [tailqRemove, hends, hback, hne]
      · simp [tailqRemove, hends]
      · simp [tailqRemove, hends, hq.symm]
  | cons b t =>
      have hnext : m.ptr (.next a) = some b := by
        cases hrest with
        | cons _ _ htail =>
            cases htail with
            | cons hptr _ _ =>
                exact hptr
      rw [tailqRemove_of_next q hnext, hback]
      refine h'.congr (fun c hc => ?_) (fun x hx => ?_) ?_
      · have hne : c ≠ d := fun heq => hd (heq ▸ hc)
        simp [hne]
      · have hne : x ≠ b := fun heq => hdisj (by simp [heq]) hx
        simp [hne]
      · rfl

end Changes

section Placement

variable {κ : Type u} {α : Type v}
variable {m : Tailqs κ α} {place : α → Option κ} {l : List α} {a : α} {q q' : κ}

/-- Every head has the list of the elements that are placed with it. -/
def Placed (m : Tailqs κ α) (place : α → Option κ) : Prop :=
  ∀ q, ∃ l, IsTailq m q l ∧ ∀ a, a ∈ l ↔ place a = some q

theorem placed_init
    (m : Tailqs κ α) :
    Placed (tailqInit m) (fun _ => none) :=
  fun q => ⟨[], ⟨.nil _, rfl⟩, by simp⟩

/-- The lists of two heads have no element in common. -/
theorem disjoint_of_placed
    {l' : List α}
    (hl : ∀ a, a ∈ l ↔ place a = some q)
    (hl' : ∀ a, a ∈ l' ↔ place a = some q')
    (hq : q ≠ q') :
    l.Disjoint l' := by
  intro x hx hx'
  have hsame := ((hl x).1 hx).symm.trans ((hl' x).1 hx')
  exact hq (Option.some.inj hsame)

theorem Placed.first
    (h : Placed m place)
    (hfirst : tailqFirst m q = some a) :
    place a = some q := by
  obtain ⟨l, hl, hmem⟩ := h q
  rw [hl.first] at hfirst
  exact (hmem a).1 (List.mem_of_mem_head? hfirst)

variable [DecidableEq κ] [DecidableEq α]

/-- An element that is placed nowhere is put at the end of a list. -/
theorem Placed.insertTail
    (h : Placed m place)
    (ha : place a = none) :
    Placed (tailqInsertTail m q a) (Function.update place a (some q)) := by
  intro q'
  obtain ⟨l, hl, hmem⟩ := h q
  have hnot : ∀ (q₀ : κ) (l₀ : List α), (∀ x, x ∈ l₀ ↔ place x = some q₀) → a ∉ l₀ := by
    intro q₀ l₀ hmem₀ hin
    have hplace := (hmem₀ a).1 hin
    rw [ha] at hplace
    cases hplace
  by_cases hq : q = q'
  · subst hq
    refine ⟨l ++ [a], hl.insertTail (hnot q l hmem), fun x => ?_⟩
    by_cases hx : x = a
    · simp [hx]
    · simp [hx, hmem]
  · obtain ⟨l', hl', hmem'⟩ := h q'
    refine ⟨l', hl.insertTail_other hl' hq (disjoint_of_placed hmem hmem' hq)
      (hnot q' l' hmem'), fun x => ?_⟩
    by_cases hx : x = a
    · simp [hx, hq, hmem', ha]
    · simp [hx, hmem']

/-- An element is taken from the list it is placed on. -/
theorem Placed.remove
    (h : Placed m place)
    (ha : place a = some q) :
    Placed (tailqRemove m q a) (Function.update place a none) := by
  intro q'
  obtain ⟨l, hl, hmem⟩ := h q
  obtain ⟨s, t, rfl⟩ := List.append_of_mem ((hmem a).2 ha)
  by_cases hq : q = q'
  · subst hq
    refine ⟨s ++ t, hl.remove, fun x => ?_⟩
    have hnodup := hl.nodup
    rw [List.nodup_middle, List.nodup_cons] at hnodup
    by_cases hx : x = a
    · simpa [hx] using hnodup.1
    · have hiff := hmem x
      simp only [List.mem_append, List.mem_cons, hx, false_or] at hiff
      simp [hx, hiff]
  · obtain ⟨l', hl', hmem'⟩ := h q'
    refine ⟨l', hl.remove_other hl' hq (disjoint_of_placed hmem hmem' hq), fun x => ?_⟩
    by_cases hx : x = a
    · simp [hx, hmem', ha, hq]
    · simp [hx, hmem']

/-- The wrong head does as well for an element that is not the last one. -/
theorem Placed.remove_any
    {b : α}
    (h : Placed m place)
    (ha : place a = some q)
    (hnext : m.ptr (.next a) = some b)
    (q' : κ) :
    Placed (tailqRemove m q' a) (Function.update place a none) := by
  rw [tailqRemove_head hnext q' q]
  exact h.remove ha

end Placement

end TailQueues
end Warp17
