import Mathlib.Tactic

/-!
# Resumable search for a two-symbol delimiter

A scan looks for the first `b` that follows an `a`, reading the input in pieces.  Between two
pieces it keeps only an offset: the length of what it has read, less one when the last symbol
read was an `a`, which is then read again.

**Results**
- `scan_append`: scanning a concatenation is scanning its parts one after the other.
- `scan_resume_found`: resumed at the kept offset, the scan finds the end of the first line.
- `scan_resume_more`: where there is no delimiter, the scan says what offset to keep.
-/

namespace Warp17
namespace DelimiterScan

universe u

variable {α : Type u}

/-- The scan ends in front of symbol `i`, or at the end of the input with its last symbol. -/
inductive ScanResult (α : Type u)
  | found (i : Nat)
  | more (last : α)
deriving DecidableEq, Repr

/-- The scan of a piece whose first symbol has the index `i`, after the symbol `last`. -/
def scan [DecidableEq α] (a b : α) : α → Nat → List α → ScanResult α
  | last, _, [] => .more last
  | last, i, x :: l => if x = b ∧ last = a then .found i else scan a b x (i + 1) l

/-- The delimiter does not occur. -/
def Undelimited (a b : α) (l : List α) : Prop :=
  ¬ [a, b] <:+: l

instance [DecidableEq α] (a b : α) (l : List α) : Decidable (Undelimited a b l) :=
  inferInstanceAs (Decidable (¬ [a, b] <:+: l))

/-- The offset kept after the symbols `l` of a line that has not ended. -/
def resumeAt [DecidableEq α] (a : α) (l : List α) : Nat :=
  if l.getLast? = some a then l.length - 1 else l.length

variable {a b : α}

/-! ## Lists without the delimiter -/

section Undelimited

theorem Undelimited.of_infix
    {l m : List α}
    (hm : Undelimited a b m)
    (hlm : l <:+: m) :
    Undelimited a b l := by
  intro hl
  exact hm (hl.trans hlm)

theorem Undelimited.head
    {x y : α} {l : List α}
    (hl : Undelimited a b (x :: y :: l)) :
    ¬ (y = b ∧ x = a) := by
  rintro ⟨rfl, rfl⟩
  exact hl (List.IsPrefix.isInfix ⟨l, rfl⟩)

theorem Undelimited.tail
    {x : α} {l : List α}
    (hl : Undelimited a b (x :: l)) :
    Undelimited a b l :=
  hl.of_infix (List.suffix_cons x l).isInfix

theorem undelimited_nil :
    Undelimited a b [] := by
  intro h
  exact absurd (List.eq_nil_of_infix_nil h) (by simp)

/-- A symbol that does not begin the delimiter may be put in front. -/
theorem Undelimited.cons
    {z : α} {l : List α}
    (hz : z ≠ a)
    (hl : Undelimited a b l) :
    Undelimited a b (z :: l) := by
  intro h
  rcases List.infix_cons_iff.1 h with hpre | hin
  · exact hz (List.cons_prefix_cons.1 hpre).1.symm
  · exact hl hin

theorem delimited_append
    (t r : List α) :
    ¬ Undelimited a b (t ++ a :: b :: r) := by
  intro h
  exact h ⟨t, r, by simp⟩

end Undelimited

/-! ## The scan -/

section Scan

variable [DecidableEq α]

/-- The index of the first symbol only shifts the result. -/
theorem scan_shift
    (l : List α) (last : α) (i k : Nat) :
    scan a b last (k + i) l =
      match scan a b last i l with
      | .found j => .found (k + j)
      | .more x => .more x := by
  induction l generalizing last i with
  | nil =>
      rfl
  | cons x l ih =>
      by_cases hx : x = b ∧ last = a
      · rw [scan, if_pos hx, scan, if_pos hx]
      · rw [scan, if_neg hx, scan, if_neg hx, Nat.add_assoc, ih]

theorem scan_append
    (l m : List α) (last : α) (i : Nat) :
    scan a b last i (l ++ m) =
      match scan a b last i l with
      | .found j => .found j
      | .more x => scan a b x (i + l.length) m := by
  induction l generalizing last i with
  | nil =>
      rfl
  | cons x l ih =>
      by_cases hx : x = b ∧ last = a
      · rw [List.cons_append, scan, if_pos hx, scan, if_pos hx]
      · rw [List.cons_append, scan, if_neg hx, scan, if_neg hx, ih, List.length_cons,
          Nat.add_assoc, Nat.add_comm 1]

/-- The scan finds the first delimiter, even one that `last` begins. -/
theorem scan_found
    {l t r : List α} {last : α}
    (i : Nat)
    (hl : last :: l = t ++ a :: b :: r)
    (ht : Undelimited a b (t ++ [a])) :
    scan a b last i l = .found (i + t.length) := by
  induction l generalizing last i t with
  | nil =>
      have hlength := congrArg List.length hl
      simp only [List.length_append, List.length_cons, List.length_nil] at hlength
      omega
  | cons x l ih =>
      cases t with
      | nil =>
          rw [List.nil_append, List.cons.injEq, List.cons.injEq] at hl
          rw [scan, if_pos ⟨hl.2.1, hl.1⟩]
          rfl
      | cons y t =>
          rw [List.cons_append, List.cons.injEq] at hl
          obtain ⟨rfl, hl⟩ := hl
          -- the first two symbols are still in front of the delimiter
          have hnot : ¬ (x = b ∧ last = a) := by
            cases t with
            | nil =>
                rw [List.nil_append, List.cons.injEq] at hl
                rw [hl.1]
                exact ht.head
            | cons z t =>
                rw [List.cons_append, List.cons.injEq] at hl
                rw [hl.1]
                exact ht.head
          rw [scan, if_neg hnot, ih (i + 1) hl ht.tail, List.length_cons]
          congr 1
          omega

theorem scan_more
    {l : List α} {last : α}
    (i : Nat)
    (hl : Undelimited a b (last :: l)) :
    scan a b last i l = .more ((last :: l).getLast (by simp)) := by
  induction l generalizing last i with
  | nil =>
      rfl
  | cons x l ih =>
      rw [scan, if_neg hl.head, ih (i + 1) hl.tail]
      rfl

end Scan

/-! ## Resuming -/

section Resume

variable [DecidableEq α]

theorem resumeAt_le
    (l : List α) :
    resumeAt a l ≤ l.length := by
  unfold resumeAt
  split <;> omega

/-- What has been read of the first line ends before its delimiter does. -/
theorem resumeAt_le_line
    {h p t r : List α}
    (hh : Undelimited a b h)
    (heq : h ++ p = t ++ a :: b :: r) :
    resumeAt a h ≤ t.length := by
  rcases le_or_gt h.length t.length with hle | hgt
  · exact (resumeAt_le h).trans hle
  · obtain ⟨u, rfl, hu⟩ : ∃ u, h = t ++ u ∧ u ++ p = a :: b :: r := by
      rcases List.append_eq_append_iff.1 heq with ⟨u, ht, hp⟩ | ⟨u, hu, hp⟩
      · rw [ht, List.length_append] at hgt
        omega
      · exact ⟨u, hu, hp.symm⟩
    cases u with
    | nil =>
        simp at hgt
    | cons x u =>
        rw [List.cons_append, List.cons.injEq] at hu
        obtain ⟨rfl, hu⟩ := hu
        cases u with
        | nil =>
            simp [resumeAt]
        | cons y u =>
            rw [List.cons_append, List.cons.injEq] at hu
            rw [hu.1] at hh
            exact absurd hh (delimited_append t u)

/-- Resumed at the kept offset, the scan ends where the first line does. -/
theorem scan_resume_found
    {h p t r : List α} {z : α}
    (hz : z ≠ a)
    (hh : Undelimited a b h)
    (heq : h ++ p = t ++ a :: b :: r)
    (ht : Undelimited a b (t ++ [a])) :
    scan a b z 0 ((h ++ p).drop (resumeAt a h)) = .found (t.length - resumeAt a h + 1) := by
  have hle := resumeAt_le_line hh heq
  have hdrop : (h ++ p).drop (resumeAt a h) = t.drop (resumeAt a h) ++ a :: b :: r := by
    rw [heq, List.drop_append_of_le_length hle]
  have hrest : Undelimited a b (z :: (t.drop (resumeAt a h) ++ [a])) := by
    refine Undelimited.cons hz (ht.of_infix ?_)
    rw [← List.drop_append_of_le_length hle]
    exact (List.drop_suffix _ _).isInfix
  have hcons : z :: (t.drop (resumeAt a h) ++ a :: b :: r) =
      (z :: t.drop (resumeAt a h)) ++ a :: b :: r := by
    rfl
  rw [hdrop, scan_found 0 hcons hrest]
  simp

/-- Without a delimiter the scan reads to the end, and its last symbol decides what is kept. -/
theorem scan_resume_more
    {h p : List α} {z : α}
    (hz : z ≠ a)
    (hno : Undelimited a b (h ++ p)) :
    ∃ last, scan a b z 0 ((h ++ p).drop (resumeAt a h)) = .more last ∧
      (if last = a then (h ++ p).length - 1 else (h ++ p).length) = resumeAt a (h ++ p) := by
  have hrest : Undelimited a b (z :: (h ++ p).drop (resumeAt a h)) :=
    Undelimited.cons hz (hno.of_infix (List.drop_suffix _ _).isInfix)
  refine ⟨_, scan_more 0 hrest, ?_⟩
  cases hd : (h ++ p).drop (resumeAt a h) with
  | nil =>
      -- nothing new was read, and nothing has to be read again
      have hlen : (h ++ p).length ≤ resumeAt a h := List.drop_eq_nil_iff.1 hd
      have hle := resumeAt_le (a := a) h
      rw [List.length_append] at hlen
      obtain rfl : p = [] := List.length_eq_zero_iff.1 (by omega)
      rw [List.append_nil, List.getLast_singleton, if_neg hz]
      omega
  | cons x l =>
      have hlast : (h ++ p).getLast? = some ((x :: l).getLast (by simp)) := by
        rw [← List.take_append_drop (resumeAt a h) (h ++ p), hd,
          List.getLast?_append_of_ne_nil _ (by simp), List.getLast?_eq_some_getLast]
      rw [List.getLast_cons (by simp), resumeAt, hlast]
      simp only [Option.some.injEq]

end Resume

end DelimiterScan
end Warp17
