import Mathlib.Tactic

/-!
# Intrusive doubly linked lists

A family of lists with heads `β` whose links lie in the elements themselves: a head holds the
pointer to its first element, an element holds the pointer to the next one and the address of
the pointer that points to it (its place).  `insertHead` and `remove` write exactly these
fields, so an element has to be on no list before the first and on some list before the second.

`Represents l lists` says that the pointers spell the lists `lists b`, that no list has a
duplicate and that no element is on two lists.

**Results**
- `insertHead_represents`, `remove_represents`: the two operations on the spelled lists.
- `Represents.first_eq`, `Represents.next_eq`: what a walk along the pointers meets.
-/

namespace Warp17
namespace IntrusiveLists

universe u v

/-- The address of a pointer: the field of a head or the `next` field of an element. -/
inductive Place (β : Type u) (α : Type v) where
  | head (b : β)
  | next (x : α)
deriving DecidableEq

/-- The pointers of all heads and elements. -/
structure Links (β : Type u) (α : Type v) where
  first : β → Option α
  next : α → Option α
  prev : α → Place β α

variable {β : Type u} {α : Type v} [DecidableEq β] [DecidableEq α]

namespace Links

/-- The pointer at a place. -/
def read (l : Links β α) : Place β α → Option α
  | .head b => l.first b
  | .next x => l.next x

/-- The pointer at a place is overwritten. -/
def write (l : Links β α) (p : Place β α) (v : Option α) : Links β α :=
  match p with
  | .head b => { l with first := Function.update l.first b v }
  | .next x => { l with next := Function.update l.next x v }

/-- The place of an element is overwritten; nothing happens at a null pointer. -/
def setPrev (l : Links β α) (x : Option α) (p : Place β α) : Links β α :=
  match x with
  | none => l
  | some x => { l with prev := Function.update l.prev x p }

def insertHead (l : Links β α) (b : β) (x : α) : Links β α :=
  (((l.write (.next x) (l.first b)).setPrev (l.first b) (.next x)).write (.head b) (some x)).setPrev
    (some x) (.head b)

def remove (l : Links β α) (x : α) : Links β α :=
  (l.setPrev (l.next x) (l.prev x)).write (l.prev x) (l.next x)

@[simp] theorem read_write
    (l : Links β α) (p q : Place β α) (v : Option α) :
    (l.write p v).read q = if q = p then v else l.read q := by
  cases p <;> cases q <;> simp [write, read, Function.update_apply]

@[simp] theorem prev_write
    (l : Links β α) (p : Place β α) (v : Option α) (x : α) :
    (l.write p v).prev x = l.prev x := by
  cases p <;> rfl

omit [DecidableEq β] in
@[simp] theorem read_setPrev
    (l : Links β α) (x : Option α) (p q : Place β α) :
    (l.setPrev x p).read q = l.read q := by
  cases x <;> cases q <;> rfl

omit [DecidableEq β] in
@[simp] theorem prev_setPrev
    (l : Links β α) (x : Option α) (p : Place β α) (y : α) :
    (l.setPrev x p).prev y = if x = some y then p else l.prev y := by
  cases x with
  | none =>
      simp [setPrev]
  | some x =>
      by_cases h : x = y
      · simp [setPrev, h]
      · simp [setPrev, h, Ne.symm h]

theorem read_insertHead
    (l : Links β α) (b : β) (x : α) (q : Place β α) :
    (l.insertHead b x).read q =
      if q = .head b then some x else if q = .next x then l.first b else l.read q := by
  simp [insertHead]

theorem prev_insertHead
    (l : Links β α) (b : β) (x y : α) :
    (l.insertHead b x).prev y =
      if x = y then .head b else if l.first b = some y then .next x else l.prev y := by
  simp [insertHead]

theorem read_remove
    (l : Links β α) (x : α) (q : Place β α) :
    (l.remove x).read q = if q = l.prev x then l.next x else l.read q := by
  simp [remove]

theorem prev_remove
    (l : Links β α) (x y : α) :
    (l.remove x).prev y = if l.next x = some y then l.prev x else l.prev y := by
  simp [remove]

end Links

section Chains

omit [DecidableEq β] [DecidableEq α]

/-- The pointers from the place `p` on spell the list `xs`. -/
def Chain (l : Links β α) : Place β α → List α → Prop
  | p, [] => l.read p = none
  | p, x :: xs => l.read p = some x ∧ l.prev x = p ∧ Chain l (.next x) xs

/-- The places a chain from `p` goes through. -/
def places (p : Place β α) (xs : List α) : List (Place β α) :=
  p :: xs.map .next

variable {l l' : Links β α} {p q : Place β α} {xs : List α} {x y : α}

theorem mem_places :
    q ∈ places p xs ↔ q = p ∨ ∃ z ∈ xs, q = .next z := by
  simp [places, eq_comm]

theorem Chain.read_eq
    (h : Chain l p xs) :
    l.read p = xs.head? := by
  cases xs with
  | nil =>
      exact h
  | cons x xs =>
      exact h.1

/-- A chain only depends on its own places and elements. -/
theorem Chain.congr
    (h : Chain l p xs)
    (hread : ∀ q ∈ places p xs, l'.read q = l.read q)
    (hprev : ∀ x ∈ xs, l'.prev x = l.prev x) :
    Chain l' p xs := by
  induction xs generalizing p with
  | nil =>
      exact (hread p (by simp [places])).trans h
  | cons x xs ih =>
      refine ⟨(hread p (by simp [places])).trans h.1, (hprev x (by simp)).trans h.2.1,
        ih h.2.2 ?_ fun y hy => hprev y (by simp [hy])⟩
      intro q hq
      exact hread q (by simp only [places, List.map_cons, List.mem_cons] at hq ⊢; exact .inr hq)

theorem Chain.next_eq
    {pre post : List α}
    (h : Chain l p (pre ++ x :: post)) :
    l.next x = post.head? := by
  induction pre generalizing p with
  | nil =>
      exact h.2.2.read_eq
  | cons y pre ih =>
      exact ih h.2.2

theorem Chain.next_mem
    (h : Chain l p xs)
    (hx : x ∈ xs)
    (hnext : l.next x = some y) :
    y ∈ xs := by
  obtain ⟨pre, post, rfl⟩ := List.append_of_mem hx
  rw [h.next_eq] at hnext
  simp [List.mem_of_mem_head? hnext]

/-- The place of an element is one of the places of its chain. -/
theorem Chain.prev_mem
    (h : Chain l p xs)
    (hx : x ∈ xs) :
    l.prev x ∈ places p xs := by
  induction xs generalizing p with
  | nil =>
      simp at hx
  | cons y ys ih =>
      rcases List.mem_cons.1 hx with rfl | hmem
      · rw [h.2.1]
        simp [places]
      · have := ih h.2.2 hmem
        simp only [places, List.map_cons, List.mem_cons] at this ⊢
        exact .inr this

end Chains

/-- The pointers spell the lists, without duplicates and without an element on two lists. -/
structure Represents (l : Links β α) (lists : β → List α) : Prop where
  chain : ∀ b, Chain l (.head b) (lists b)
  nodup : ∀ b, (lists b).Nodup
  apart : ∀ b b' x, x ∈ lists b → x ∈ lists b' → b = b'

namespace Represents

variable {l : Links β α} {lists : β → List α} {b : β} {x y : α}

omit [DecidableEq β] [DecidableEq α]

/-- Empty heads represent empty lists, whatever the other fields hold. -/
theorem of_empty
    (h : ∀ b, l.first b = none) :
    Represents l fun _ => [] :=
  ⟨h, fun _ => List.nodup_nil, by simp⟩

theorem first_eq
    (h : Represents l lists) :
    l.first b = (lists b).head? :=
  (h.chain b).read_eq

theorem next_eq
    {pre post : List α}
    (h : Represents l lists)
    (heq : lists b = pre ++ x :: post) :
    l.next x = post.head? := by
  have hchain := h.chain b
  rw [heq] at hchain
  exact hchain.next_eq

end Represents

variable {l : Links β α} {lists : β → List α} {b c : β} {x y : α} {p : Place β α} {xs : List α}

omit [DecidableEq α] in
theorem mem_insert :
    y ∈ Function.update lists b (x :: lists b) c ↔ (y = x ∧ c = b) ∨ y ∈ lists c := by
  by_cases hc : c = b
  · subst hc
    simp
  · simp [hc]

theorem Represents.mem_remove
    (h : Represents l lists)
    (hx : x ∈ lists b) :
    y ∈ Function.update lists b ((lists b).erase x) c ↔ y ≠ x ∧ y ∈ lists c := by
  by_cases hc : c = b
  · subst hc
    rw [Function.update_self, (h.nodup c).mem_erase_iff]
  · rw [Function.update_of_ne hc]
    refine ⟨fun hy => ⟨?_, hy⟩, And.right⟩
    rintro rfl
    exact hc (h.apart c b y hy hx)

/-- A new first element: the chain behind it keeps its places. -/
theorem insertHead_chain
    (h : Chain l (.head b) xs)
    (hnodup : xs.Nodup)
    (hx : x ∉ xs) :
    Chain (l.insertHead b x) (.head b) (x :: xs) := by
  refine ⟨by simp [Links.read_insertHead], by simp [Links.prev_insertHead], ?_⟩
  cases xs with
  | nil =>
      have hfirst : l.first b = none := h
      simp [Chain, Links.read_insertHead, hfirst]
  | cons y ys =>
      have hfirst : l.first b = some y := h.1
      have hxy : x ≠ y := fun heq => hx (by simp [heq])
      refine ⟨by simp [Links.read_insertHead, hfirst], by simp [Links.prev_insertHead, hfirst, hxy],
        h.2.2.congr ?_ ?_⟩
      · intro q hq
        obtain ⟨z, hz, rfl⟩ : ∃ z ∈ y :: ys, q = .next z := by
          simpa [mem_places] using hq
        have hzx : z ≠ x := fun heq => hx (heq ▸ hz)
        simp [Links.read_insertHead, hzx]
      · intro z hz
        have hxz : x ≠ z := fun heq => hx (heq ▸ List.mem_cons_of_mem y hz)
        have hyz : y ≠ z := fun heq => (List.nodup_cons.1 hnodup).1 (heq ▸ hz)
        simp [Links.prev_insertHead, hfirst, hxz, hyz]

theorem insertHead_represents
    (h : Represents l lists)
    (hx : ∀ b, x ∉ lists b) :
    Represents (l.insertHead b x) (Function.update lists b (x :: lists b)) := by
  refine ⟨fun c => ?_, fun c => ?_, ?_⟩
  · by_cases hc : c = b
    · subst hc
      rw [Function.update_self]
      exact insertHead_chain (h.chain c) (h.nodup c) (hx c)
    · rw [Function.update_of_ne hc]
      refine (h.chain c).congr ?_ ?_
      · intro q hq
        rcases mem_places.1 hq with rfl | ⟨z, hz, rfl⟩
        · simp [Links.read_insertHead, hc]
        · have hzx : z ≠ x := fun heq => hx c (heq ▸ hz)
          simp [Links.read_insertHead, hzx]
      · intro z hz
        have hxz : x ≠ z := fun heq => hx c (heq ▸ hz)
        have hfirst : l.first b ≠ some z := by
          intro heq
          rw [h.first_eq] at heq
          exact hc (h.apart c b z hz (List.mem_of_mem_head? heq))
        simp [Links.prev_insertHead, hxz, hfirst]
  · by_cases hc : c = b
    · subst hc
      rw [Function.update_self]
      exact List.nodup_cons.2 ⟨hx c, h.nodup c⟩
    · rw [Function.update_of_ne hc]
      exact h.nodup c
  · intro c d y hcy hdy
    rcases mem_insert.1 hcy with ⟨rfl, rfl⟩ | hc <;> rcases mem_insert.1 hdy with ⟨hyx, rfl⟩ | hd
    · rfl
    · exact absurd hd (hx d)
    · exact absurd (hyx ▸ hc) (hx c)
    · exact h.apart c d y hc hd

/-- Removing an element of a chain; its first place must not be a place inside it. -/
theorem remove_chain
    (h : Chain l p xs)
    (hnodup : xs.Nodup)
    (hp : ∀ y ∈ xs, p ≠ .next y)
    (hx : x ∈ xs) :
    Chain (l.remove x) p (xs.erase x) := by
  induction xs generalizing p with
  | nil =>
      simp at hx
  | cons y ys ih =>
      obtain ⟨hread, hprev, htail⟩ := h
      obtain ⟨hy, hys⟩ := List.nodup_cons.1 hnodup
      by_cases hyx : y = x
      · subst hyx
        rw [List.erase_cons_head]
        cases ys with
        | nil =>
            have hnext : l.next y = none := htail
            simp [Chain, Links.read_remove, hprev, hnext]
        | cons z zs =>
            have hnext : l.next y = some z := htail.1
            refine ⟨by simp [Links.read_remove, hprev, hnext],
              by simp [Links.prev_remove, hprev, hnext], htail.2.2.congr ?_ ?_⟩
            · intro q hq
              obtain ⟨w, hw, rfl⟩ : ∃ w ∈ z :: zs, q = .next w := by
                simpa [mem_places] using hq
              have hpw : Place.next w ≠ p := (hp w (List.mem_cons_of_mem y hw)).symm
              simp [Links.read_remove, hprev, hpw]
            · intro w hw
              have hzw : z ≠ w := fun heq => (List.nodup_cons.1 hys).1 (heq ▸ hw)
              simp [Links.prev_remove, hnext, hzw]
      · have hmem : x ∈ ys := by
          simpa [Ne.symm hyx] using hx
        rw [List.erase_cons_tail (by simpa using hyx)]
        -- the fields of `y` are not touched: the place of `x` lies behind it
        have hpx : p ≠ l.prev x := by
          intro heq
          obtain ⟨w, hw, hpw⟩ : ∃ w ∈ y :: ys, p = .next w := by
            simpa [mem_places, ← heq] using htail.prev_mem hmem
          exact hp w hw hpw
        have hnext : l.next x ≠ some y := fun heq => hy (htail.next_mem hmem heq)
        refine ⟨by simp [Links.read_remove, hpx, hread], by simp [Links.prev_remove, hnext, hprev],
          ih htail hys ?_ hmem⟩
        intro w hw heq
        exact hy (Place.next.inj heq ▸ hw)

theorem remove_represents
    (h : Represents l lists)
    (hx : x ∈ lists b) :
    Represents (l.remove x) (Function.update lists b ((lists b).erase x)) := by
  refine ⟨fun c => ?_, fun c => ?_, fun c d y hc hd =>
    h.apart c d y ((h.mem_remove hx).1 hc).2 ((h.mem_remove hx).1 hd).2⟩
  · by_cases hc : c = b
    · subst hc
      rw [Function.update_self]
      exact remove_chain (h.chain c) (h.nodup c) (by simp) hx
    · rw [Function.update_of_ne hc]
      have hplace := mem_places.1 ((h.chain b).prev_mem hx)
      refine (h.chain c).congr ?_ ?_
      · intro q hq
        have hne : q ≠ l.prev x := by
          rcases mem_places.1 hq with rfl | ⟨z, hz, rfl⟩ <;>
            rcases hplace with hpl | ⟨w, hw, hpl⟩ <;> rw [hpl]
          · exact fun heq => hc (Place.head.inj heq)
          · exact fun heq => nomatch heq
          · exact fun heq => nomatch heq
          · exact fun heq => hc (h.apart c b z hz (Place.next.inj heq ▸ hw))
        simp [Links.read_remove, hne]
      · intro z hz
        have hnext : l.next x ≠ some z := fun heq =>
          hc (h.apart c b z hz ((h.chain b).next_mem hx heq))
        simp [Links.prev_remove, hnext]
  · by_cases hc : c = b
    · subst hc
      rw [Function.update_self]
      exact (h.nodup c).erase x
    · rw [Function.update_of_ne hc]
      exact h.nodup c

end IntrusiveLists
end Warp17
