import Warp17.RetransmissionQueue
import Warp17.SegmentCloning

/-!
# The marks of a cloned segment

Every mark of the cloned range has to show up on the same byte of the clone.  The offset of
the range belongs to the first mbuf only, but the loop of `data_clone_seg` also subtracts it
from the marks of the later ones.  Besides, the offset that is recorded in the first clone
has 16 bits.

**Results**
- `mem_cloneMarks_zero`, `cloneMarks_later_wrong`: the marks that the clones get.
- `laterMarksAway_iff`: what keeps the later mbufs harmless.
- `dataCloneSeg_right_iff`: exactly when the clone is right; its bytes and lengths always are.
-/

namespace Warp17
namespace CloneTimestamps

open SequenceComparison PackedWords MbufUserData SegmentCloning

section CloneMarks

/-- Every mark lies inside the mbuf that carries it. -/
def MarksInside (c : DataChain) : Prop :=
  ∀ m ∈ c, ∀ x ∈ markOf m, x.1 < m.data.length

theorem MarksInside.head
    {m : DataMbuf} {rest : DataChain}
    (h : MarksInside (m :: rest)) :
    ∀ x ∈ markOf m, x.1 < m.data.length :=
  h m (by simp)

theorem MarksInside.tail
    {m : DataMbuf} {rest : DataChain}
    (h : MarksInside (m :: rest)) :
    MarksInside rest :=
  fun n hn => h n (by simp [hn])

theorem mem_clipMark
    {off len : Nat} {m : DataMbuf} {x : Nat × U32} :
    x ∈ clipMark off len m ↔ x.1 < len ∧ (off + x.1, x.2) ∈ markOf m := by
  obtain ⟨p, size⟩ := x
  simp only [clipMark, List.mem_filterMap]
  constructor
  · rintro ⟨⟨q, t⟩, hmem, hsome⟩
    split_ifs at hsome with hin
    · cases hsome
      simp only at hin
      exact ⟨by simp only; omega, by rwa [Nat.add_sub_cancel' hin.1]⟩
  · rintro ⟨hlt, hmem⟩
    refine ⟨_, hmem, ?_⟩
    rw [if_pos ⟨Nat.le_add_right _ _, by simp only; omega⟩, Nat.add_sub_cancel_left]

theorem mem_marks_cons
    {m : DataMbuf} {rest : DataChain} {x : Nat × U32} :
    x ∈ marks (m :: rest) ↔
      x ∈ markOf m ∨ (m.data.length ≤ x.1 ∧ (x.1 - m.data.length, x.2) ∈ marks rest) := by
  rw [marks, List.mem_append, mem_shiftMarks]

/-- The marks of the clones of one mbuf and of the mbufs after it. -/
theorem mem_cloneMarks_cons
    {off drop len : Nat} {m : DataMbuf} {rest : DataChain} {x : Nat × U32} :
    x ∈ cloneMarks off drop (m :: rest) len ↔
      x ∈ clipMark off (min (m.data.length - drop) len) m ∨
        (m.data.length - drop < len ∧ m.data.length - drop ≤ x.1 ∧
          (x.1 - (m.data.length - drop), x.2) ∈
            cloneMarks off 0 rest (len - (m.data.length - drop))) := by
  rw [cloneMarks]
  split_ifs with hfit
  · rw [Nat.min_eq_right hfit]
    exact (or_iff_left fun h => absurd h.1 (Nat.not_lt.2 hfit)).symm
  · rw [Nat.min_eq_left (by omega), List.mem_append, mem_shiftMarks]
    simp [Nat.lt_of_not_le hfit]

/-- The first of the marks comes first in the chain. -/
theorem cloneMarks_sorted
    (off drop : Nat) (c : DataChain) (len : Nat) :
    (cloneMarks off drop c len).Pairwise fun x y => x.1 ≤ y.1 := by
  have hclip : ∀ n m, (clipMark off n m).Pairwise fun x y => x.1 ≤ y.1 := by
    intro n m
    have hshort : (clipMark off n m).length ≤ 1 :=
      (List.length_filterMap_le _ _).trans (markOf_length_le m)
    match clipMark off n m, hshort with
    | [], _ => exact List.Pairwise.nil
    | [x], _ => exact List.pairwise_singleton _ _
  induction c generalizing drop len with
  | nil =>
      exact List.Pairwise.nil
  | cons m rest ih =>
      rw [cloneMarks]
      split_ifs
      · exact hclip _ _
      · rw [List.pairwise_append]
        refine ⟨hclip _ _, ?_, ?_⟩
        · rw [shiftMarks, List.pairwise_map]
          exact (ih 0 _).imp fun h => Nat.add_le_add_left h _
        · intro x hx y hy
          have hlt := (mem_clipMark.1 hx).1
          have hge := (mem_shiftMarks.1 hy).1
          omega

/-- Without an offset the clones carry the marks of the range. -/
theorem mem_cloneMarks_zero
    {c : DataChain} {len : Nat} {x : Nat × U32}
    (hc : MarksInside c) :
    x ∈ cloneMarks 0 0 c len ↔ x.1 < len ∧ x ∈ marks c := by
  induction c generalizing len x with
  | nil =>
      simp [cloneMarks, marks]
  | cons m rest ih =>
      rw [mem_cloneMarks_cons, mem_clipMark, ih hc.tail, mem_marks_cons, Nat.zero_add,
        Nat.sub_zero]
      constructor
      · rintro (⟨hlt, hmem⟩ | ⟨hlong, hge, hlt, hmem⟩)
        · exact ⟨(Nat.lt_min.1 hlt).2, Or.inl hmem⟩
        · exact ⟨by simp only at hlt; omega, Or.inr ⟨hge, hmem⟩⟩
      · rintro ⟨hlt, hmem | ⟨hge, hmem⟩⟩
        · exact Or.inl ⟨Nat.lt_min.2 ⟨hc.head x hmem, hlt⟩, hmem⟩
        · exact Or.inr ⟨by omega, hge, by simp only; omega, hmem⟩

/-- A positive offset puts no mark of a later mbuf where it belongs. -/
theorem cloneMarks_later_wrong
    {c : DataChain} {off len : Nat}
    (hoff : 0 < off)
    (hc : MarksInside c)
    (h : ∀ x ∈ cloneMarks off 0 c len, x ∈ marks c) :
    ∀ x, x ∉ cloneMarks off 0 c len := by
  induction c generalizing len with
  | nil =>
      simp [cloneMarks]
  | cons m rest ih =>
      intro x hx
      rcases mem_cloneMarks_cons.1 hx with hclip | ⟨hlong, hge, hmem⟩
      · -- the mark would have to be the one of this mbuf, which is `off` bytes further on
        obtain ⟨hlt, hmark⟩ := mem_clipMark.1 hclip
        rw [Nat.sub_zero, Nat.lt_min] at hlt
        rcases mem_marks_cons.1 (h x hx) with hsame | ⟨hge, -⟩
        · have hshort := markOf_length_le m
          have hone := List.length_eq_one_iff.1
            (Nat.le_antisymm hshort (List.length_pos_of_mem hsame))
          obtain ⟨y, hy⟩ := hone
          rw [hy, List.mem_singleton] at hsame hmark
          rw [hsame, ← hmark] at hmark
          have hpos := congrArg Prod.fst hmark
          have hpos' := congrArg Prod.fst hsame
          simp only at hpos hpos'
          omega
        · omega
      · refine @ih (len - (m.data.length - 0)) hc.tail (fun y hy => ?_) _ hmem
        have hmore : (m.data.length + y.1, y.2) ∈ cloneMarks off 0 (m :: rest) len :=
          mem_cloneMarks_cons.2 (Or.inr ⟨hlong, by simp, by simpa using hy⟩)
        rcases mem_marks_cons.1 (h _ hmore) with hown | ⟨-, hrest⟩
        · have hlt := hc.head _ hown
          simp only at hlt
          omega
        · simpa using hrest

/--
No mark of the mbufs after the first lies in the part that is cloned, nor would one lie there
after `off` was taken from it.
-/
def LaterMarksAway (off : Nat) : DataChain → Nat → Prop
  | [], _ => True
  | m :: rest, len =>
      (∀ x ∈ markOf m, min m.data.length len ≤ x.1 ∧
        (x.1 < off ∨ off + min m.data.length len ≤ x.1)) ∧
      (m.data.length < len → LaterMarksAway off rest (len - m.data.length))

theorem laterMarksAway_iff
    {c : DataChain} {off len : Nat}
    (hc : MarksInside c) :
    LaterMarksAway off c len ↔
      (∀ x, x ∉ cloneMarks off 0 c len) ∧ ∀ x ∈ marks c, len ≤ x.1 := by
  induction c generalizing len with
  | nil =>
      simp [LaterMarksAway, cloneMarks, marks]
  | cons m rest ih =>
      rw [LaterMarksAway, ih hc.tail]
      constructor
      · rintro ⟨hown, hrest⟩
        constructor
        · intro x hx
          rcases mem_cloneMarks_cons.1 hx with hclip | ⟨hlong, -, hmem⟩
          · obtain ⟨hlt, hmark⟩ := mem_clipMark.1 hclip
            have haway := (hown _ hmark).2
            rw [Nat.sub_zero] at hlt
            simp only at haway
            omega
          · exact (hrest hlong).1 _ hmem
        · intro x hx
          rcases mem_marks_cons.1 hx with hmark | ⟨hge, hmem⟩
          · have hbehind := (hown x hmark).1
            have hinside := hc.head x hmark
            omega
          · by_cases hlong : m.data.length < len
            · have hfar := (hrest hlong).2 _ hmem
              simp only at hfar
              omega
            · omega
      · rintro ⟨hclone, hbehind⟩
        constructor
        · intro x hmark
          have hfar := hbehind x (mem_marks_cons.2 (Or.inl hmark))
          refine ⟨(Nat.min_le_right _ _).trans hfar, ?_⟩
          by_contra haway
          refine hclone (x.1 - off, x.2) (mem_cloneMarks_cons.2 (Or.inl (mem_clipMark.2 ?_)))
          rw [Nat.sub_zero]
          refine ⟨by simp only; omega, ?_⟩
          simp only
          rwa [Nat.add_sub_cancel' (by omega)]
        · intro hlong
          constructor
          · intro x hx
            exact hclone (m.data.length + x.1, x.2)
              (mem_cloneMarks_cons.2 (Or.inr ⟨hlong, by simp, by simpa using hx⟩))
          · intro x hx
            have hfar := hbehind (m.data.length + x.1, x.2)
              (mem_marks_cons.2 (Or.inr ⟨by simp, by simpa using hx⟩))
            simp only at hfar
            omega

end CloneMarks

section FirstMark

/-- A size has 16 bits. -/
theorem marks_size
    {c : DataChain} {x : Nat × U32}
    (hx : x ∈ marks c) :
    x.2 &&& lowMask 32 16 = x.2 := by
  induction c generalizing x with
  | nil =>
      cases hx
  | cons m rest ih =>
      rcases mem_marks_cons.1 hx with hmark | ⟨-, hmem⟩
      · rw [markOf] at hmark
        split_ifs at hmark
        · rw [List.mem_singleton.1 hmark]
          exact dataGetTstampSize_and_lowMask _
        · cases hmark
      · exact @ih (x.1 - m.data.length, x.2) hmem

/-- What the first mbuf records on top of the marks of the clones. -/
theorem mem_marks_headMarked
    {own : DataChain} {x : Nat × U32}
    (hfresh : ∀ m ∈ own, dataIsTstamp m.udata64 = false → m.udata64 = 0#64) :
    x ∈ marks (headMarked own) ↔
      x ∈ marks own ∨ ∃ y ∈ (marks own).head?, x = (y.1 % 2 ^ 16, y.2) := by
  cases hfirst : (marks own).head? with
  | none =>
      rw [headMarked_of_unmarked (List.head?_eq_none_iff.1 hfirst)]
      simp
  | some y =>
      obtain ⟨q, size⟩ := y
      have hsize : size &&& lowMask 32 16 = size := marks_size (List.mem_of_mem_head? hfirst)
      cases own with
      | nil =>
          cases hfirst
      | cons m rest =>
          have hrecorded : markOf { m with
              udata64 := tstampTxPkt m.udata64 (BitVec.ofNat 32 q) size } =
                [(q % 2 ^ 16, size)] ∧ (markOf m = [] ∨ markOf m = [(q % 2 ^ 16, size)]) := by
            cases hflag : dataIsTstamp m.udata64 with
            | false =>
                have hzero := hfresh m (by simp) hflag
                refine ⟨?_, Or.inl (markOf_of_fresh hzero)⟩
                rw [markOf, if_pos (tstampTxPkt_isTstamp _ _ _), hzero,
                  fresh_tstampTxPkt_offset, tstampTxPkt_size, fresh_size, BitVec.zero_or, hsize,
                  BitVec.toNat_ofNat, Nat.mod_mod_of_dvd _ (by decide)]
            | true =>
                have hmark : markOf m =
                    [((dataGetTstampOffset m.udata64).toNat, dataGetTstampSize m.udata64)] := by
                  rw [markOf, if_pos hflag]
                rw [marks, hmark] at hfirst
                cases hfirst
                have hlow := dataGetTstampOffset_lt m.udata64
                have hsame : dataGetTstampOffset m.udata64 &&& lowMask 32 16 =
                    dataGetTstampOffset m.udata64 := getBits_and_lowMask m.udata64 0
                rw [Nat.mod_eq_of_lt hlow]
                refine ⟨?_, Or.inr hmark⟩
                rw [markOf, if_pos (tstampTxPkt_isTstamp _ _ _), tstampTxPkt_offset,
                  tstampTxPkt_size, hsize, BitVec.ofNat_toNat, BitVec.setWidth_eq, hsame,
                  BitVec.or_self, BitVec.or_self]
          rw [headMarked, hfirst]
          simp only [markFirst, Option.mem_some_iff, exists_eq_left']
          rw [mem_marks_cons, mem_marks_cons, hrecorded.1, List.mem_singleton]
          rcases hrecorded.2 with hnone | hone
          · rw [hnone]
            simp only [List.not_mem_nil, false_or]
            exact or_comm
          · rw [hone, List.mem_singleton]
            tauto

/-- The fields set after the loop do not touch the marks. -/
theorem marks_finishClone
    (s : CloneState) :
    marks (finishClone s) = marks s.clones := by
  rw [finishClone]
  split
  · rename_i heq
    rw [heq]
  · rename_i m rest heq
    rw [heq]
    have hsame : ∀ u : U64, dataIsTstamp (if 1 < s.tstampCount then dataSetTstampMulti u else u) =
          dataIsTstamp u ∧
        dataGetTstampOffset (if 1 < s.tstampCount then dataSetTstampMulti u else u) =
          dataGetTstampOffset u ∧
        dataGetTstampSize (if 1 < s.tstampCount then dataSetTstampMulti u else u) =
          dataGetTstampSize u := by
      intro u
      split_ifs <;> simp
    obtain ⟨hflag, hoffset, hsize⟩ := hsame m.udata64
    simp only [marks, markOf, hflag, hoffset, hsize]

end FirstMark

section Clone

/-- A chain of data to be sent: the first mbuf describes it, and marks lie inside their mbuf. -/
structure SegDataOk (c : DataChain) : Prop where
  dataLen : ∀ m ∈ c, m.data.length < 2 ^ 16
  pktLen : ∀ m ∈ c.head?, m.pktLen.toNat = (dataBytes c).length
  nbSegs : ∀ m ∈ c.head?, m.nbSegs.toNat = c.length
  marks : MarksInside c

/-- `clone` shows the `len` bytes of `c` from byte `off` on, with their marks. -/
structure Cloned (c : DataChain) (off len : Nat) (clone : DataChain) : Prop where
  bytes : dataBytes clone = ((dataBytes c).drop off).take len
  parts : clone.map (fun m => m.data) = rangeParts (c.map fun m => m.data) off len
  pktLen : ∀ m ∈ clone.head?, m.pktLen.toNat = len
  nbSegs : ∀ m ∈ clone.head?, m.nbSegs.toNat = clone.length
  marks : ∀ p size, (p, size) ∈ marks clone ↔ p < len ∧ (off + p, size) ∈ marks c

/--
What a call has to return: the clone, or nothing if there is nothing to clone or a request
for an mbuf was refused; and every mbuf it got is in the clone or was given back.
-/
def ClonesSegment (pktMbufAlloc : Nat → Option Nat) (c : DataChain) (off len : Nat)
    (r : CloneRun) : Prop :=
  match r.clone with
  | some clone =>
      Cloned c off len clone ∧ r.freed = [] ∧
        clone.map (fun m => some m.id) = (List.range r.allocs).map pktMbufAlloc
  | none =>
      (len = 0 ∨ ∃ n < r.allocs, pktMbufAlloc n = none) ∧
        r.freed = (List.range r.allocs).filterMap pktMbufAlloc

/--
The range begins at the start of the first mbuf and the first mark of it has an offset of 16
bits, or the mbufs after the first have no mark that would be taken along.
-/
def MarksKept (c : DataChain) (off len : Nat) : Prop :=
  match c with
  | [] => True
  | m :: rest =>
      (off = 0 → ∀ x ∈ marks c, x.1 < len → (∀ y ∈ marks c, x.1 ≤ y.1) → x.1 < 2 ^ 16) ∧
      (0 < off → LaterMarksAway off rest (len - (m.data.length - off)))

/-- Nothing is taken along from an empty range. -/
theorem laterMarksAway_zero
    (off : Nat) (c : DataChain) :
    LaterMarksAway off c 0 := by
  cases c with
  | nil =>
      trivial
  | cons m rest =>
      exact ⟨fun x _ => by omega, fun hlt => absurd hlt (Nat.not_lt_zero _)⟩

/-- The first of the marks is below all others. -/
theorem cloneMarks_first
    {off drop len : Nat} {c : DataChain} {y : Nat × U32}
    (hy : y ∈ (cloneMarks off drop c len).head?) :
    y ∈ cloneMarks off drop c len ∧ ∀ x ∈ cloneMarks off drop c len, y.1 ≤ x.1 := by
  refine ⟨List.mem_of_mem_head? hy, fun x hx => ?_⟩
  have hsorted := cloneMarks_sorted off drop c len
  cases hl : cloneMarks off drop c len with
  | nil =>
      rw [hl] at hx
      cases hx
  | cons z tail =>
      rw [hl] at hy hx hsorted
      cases hy
      rcases List.mem_cons.1 hx with rfl | htail
      · exact le_refl _
      · exact List.rel_of_pairwise_cons hsorted htail

/-- A mark of the range lies in the first mbuf or in a later one. -/
theorem mem_range_iff
    {m : DataMbuf} {rest : DataChain} {off len p : Nat} {size : U32}
    (hc : MarksInside (m :: rest))
    (hoff : off < m.data.length) :
    (p < len ∧ (off + p, size) ∈ marks (m :: rest)) ↔
      ((p, size) ∈ clipMark off (min (m.data.length - off) len) m ∨
        (m.data.length - off ≤ p ∧ p < len ∧
          (p - (m.data.length - off), size) ∈ marks rest)) := by
  have hplace : off + p - m.data.length = p - (m.data.length - off) := by omega
  rw [mem_marks_cons, mem_clipMark]
  simp only [hplace]
  constructor
  · rintro ⟨hlt, hmark | ⟨hge, hmem⟩⟩
    · have hinside := hc.head _ hmark
      exact Or.inl ⟨by simp only at hinside; omega, hmark⟩
    · exact Or.inr ⟨by omega, hlt, hmem⟩
  · rintro (⟨hlt, hmark⟩ | ⟨hge, hlt, hmem⟩)
    · exact ⟨by omega, Or.inl hmark⟩
    · exact ⟨hlt, Or.inr ⟨by omega, hmem⟩⟩

/-- Without an offset only the 16 bits of the first mark matter. -/
theorem marks_right_zero_iff
    {c : DataChain} {len : Nat}
    (hc : MarksInside c) :
    (∀ p size,
        ((p, size) ∈ cloneMarks 0 0 c len ∨
          ∃ y ∈ (cloneMarks 0 0 c len).head?, (p, size) = (y.1 % 2 ^ 16, y.2)) ↔
        p < len ∧ (p, size) ∈ marks c) ↔
      ∀ x ∈ marks c, x.1 < len → (∀ y ∈ marks c, x.1 ≤ y.1) → x.1 < 2 ^ 16 := by
  constructor
  · intro h x hx hlt hfirst
    have hmem := (mem_cloneMarks_zero hc).2 ⟨hlt, hx⟩
    obtain ⟨y, tail, hcons⟩ := List.exists_cons_of_ne_nil (List.ne_nil_of_mem hmem)
    have hy : y ∈ (cloneMarks 0 0 c len).head? := by
      rw [hcons]
      rfl
    have hyx := (cloneMarks_first hy).2 x hmem
    have hin := (h (y.1 % 2 ^ 16) y.2).1 (Or.inr ⟨y, hy, rfl⟩)
    have hle := hfirst _ hin.2
    simp only at hle
    have hmod := Nat.mod_lt y.1 (show 0 < 2 ^ 16 by decide)
    omega
  · intro h p size
    rw [← @mem_cloneMarks_zero c len (p, size) hc]
    refine or_iff_left_of_imp ?_
    rintro ⟨y, hy, heq⟩
    obtain ⟨hmem, hmin⟩ := cloneMarks_first hy
    have hin := (mem_cloneMarks_zero hc).1 hmem
    have hlow : y.1 < 2 ^ 16 := by
      refine h y hin.2 hin.1 fun z hz => ?_
      by_cases hzlen : z.1 < len
      · exact hmin z ((mem_cloneMarks_zero hc).2 ⟨hzlen, hz⟩)
      · omega
    rwa [heq, Nat.mod_eq_of_lt hlow]

/-- With an offset the marks of the later mbufs go wrong, wherever they are in the range. -/
theorem marks_right_pos_iff
    {m : DataMbuf} {rest : DataChain} {off len : Nat}
    (hc : MarksInside (m :: rest))
    (hpos : 0 < off)
    (hoff : off < m.data.length)
    (hdata : m.data.length < 2 ^ 16) :
    (∀ p size,
        ((p, size) ∈ cloneMarks off off (m :: rest) len ∨
          ∃ y ∈ (cloneMarks off off (m :: rest) len).head?,
            (p, size) = (y.1 % 2 ^ 16, y.2)) ↔
        p < len ∧ (off + p, size) ∈ marks (m :: rest)) ↔
      LaterMarksAway off rest (len - (m.data.length - off)) := by
  have hafter : MarksInside rest := hc.tail
  rw [laterMarksAway_iff hafter]
  constructor
  · intro h
    have hlater : ∀ x, x ∉ cloneMarks off 0 rest (len - (m.data.length - off)) := by
      refine cloneMarks_later_wrong hpos hafter fun x hx => ?_
      by_cases hlong : m.data.length - off < len
      · have hmem := (h (m.data.length - off + x.1) x.2).1
          (Or.inl (mem_cloneMarks_cons.2 (Or.inr ⟨hlong, by simp, by simpa using hx⟩)))
        rcases (mem_range_iff hc hoff).1 hmem with hclip | ⟨-, -, hrest⟩
        · have hlt := (mem_clipMark.1 hclip).1
          simp only at hlt
          omega
        · simpa using hrest
      · have hnone : len - (m.data.length - off) = 0 := by omega
        rw [hnone] at hx
        exact absurd hx (((laterMarksAway_iff hafter).1 (laterMarksAway_zero off rest)).1 x)
    have hfirst : ∀ z ∈ cloneMarks off off (m :: rest) len, z.1 < m.data.length - off := by
      intro z hz
      rcases mem_cloneMarks_cons.1 hz with hclip | ⟨-, -, hrest⟩
      · exact lt_of_lt_of_le (mem_clipMark.1 hclip).1 (Nat.min_le_left _ _)
      · exact absurd hrest (hlater _)
    refine ⟨hlater, fun x hx => ?_⟩
    -- a mark of a later mbuf in the range would be missing
    by_contra hnear
    have hmem := (h (m.data.length - off + x.1) x.2).2
      ((mem_range_iff hc hoff).2 (Or.inr ⟨by omega, by omega, by simpa using hx⟩))
    rcases hmem with hclone | ⟨y, hy, heq⟩
    · have hlt := hfirst _ hclone
      simp only at hlt
      omega
    · have hlt := hfirst _ (cloneMarks_first hy).1
      have hplace := congrArg Prod.fst heq
      simp only at hplace
      have hmod := Nat.mod_le y.1 (2 ^ 16)
      omega
  · rintro ⟨hlater, hbehind⟩ p size
    rw [mem_range_iff hc hoff, mem_cloneMarks_cons]
    have hnone : ¬ (m.data.length - off ≤ p ∧ p < len ∧
        (p - (m.data.length - off), size) ∈ marks rest) := by
      rintro ⟨hge, hlt, hmem⟩
      have hfar := hbehind _ hmem
      simp only at hfar
      omega
    constructor
    · rintro ((hclip | ⟨-, -, hmem⟩) | ⟨y, hy, heq⟩)
      · exact Or.inl hclip
      · exact absurd hmem (hlater _)
      · rcases mem_cloneMarks_cons.1 (cloneMarks_first hy).1 with hclip | ⟨-, -, hmem⟩
        · have hlt := (mem_clipMark.1 hclip).1
          rw [heq, Nat.mod_eq_of_lt (by omega)]
          exact Or.inl hclip
        · exact absurd hmem (hlater _)
    · rintro (hclip | hrest)
      · exact Or.inl (Or.inl hclip)
      · exact absurd hrest hnone

/-- The marks of the clone are those of the range exactly if they are kept. -/
theorem marks_right_iff
    {m : DataMbuf} {rest own : DataChain} {off len : Nat}
    (hc : MarksInside (m :: rest))
    (hoff : off < m.data.length)
    (hdata : m.data.length < 2 ^ 16)
    (hfresh : ∀ m ∈ own, dataIsTstamp m.udata64 = false → m.udata64 = 0#64)
    (hown : marks own = cloneMarks off off (m :: rest) len) :
    (∀ p size, (p, size) ∈ marks (headMarked own) ↔
        p < len ∧ (off + p, size) ∈ marks (m :: rest)) ↔
      MarksKept (m :: rest) off len := by
  simp only [mem_marks_headMarked hfresh, hown, MarksKept]
  rcases Nat.eq_zero_or_pos off with rfl | hpos
  · simp only [Nat.zero_add, forall_const, lt_irrefl, false_imp_iff, and_true]
    exact marks_right_zero_iff hc
  · simp only [hpos.ne', false_imp_iff, true_and, hpos, forall_const]
    exact marks_right_pos_iff hc hpos hoff hdata

/-- The requests were all granted when the whole range was cloned. -/
theorem Held.granted
    {pktMbufAlloc : Nat → Option Nat} {len : U32} {s : CloneState} {own : DataChain}
    (h : Held pktMbufAlloc len s own) :
    ∀ n < own.length, pktMbufAlloc n ≠ none := by
  intro n hn hnone
  have hids := congrArg (fun l => l[n]?) h.ids
  simp [hn, hnone] at hids

/-- The mbufs that were got before a refused request. -/
theorem filterMap_range_of_refused
    {pktMbufAlloc : Nat → Option Nat} {n : Nat} {l : List Nat}
    (h : l.map some = (List.range n).map pktMbufAlloc)
    (hnone : pktMbufAlloc n = none) :
    (List.range (n + 1)).filterMap pktMbufAlloc = l := by
  have hgot : (List.range n).filterMap pktMbufAlloc = l := by
    have hid := congrArg (List.filterMap id) h
    rw [List.filterMap_map, List.filterMap_map] at hid
    simpa using hid.symm
  rw [List.range_succ, List.filterMap_append, hgot]
  simp [hnone]

/-- The bytes of the clone are those that TCP takes a segment to have. -/
theorem Cloned.segment_bytes
    {c clone : DataChain} {off len : Nat}
    (h : Cloned c off len clone)
    (hpos : 0 < len)
    (hlen : off + len ≤ (dataBytes c).length) :
    MbufChains.dataCloneSeg (c.map DataMbuf.toMbuf) len off = some (dataBytes clone) := by
  have hbytes : MbufChains.chainBytes (c.map DataMbuf.toMbuf) = dataBytes c :=
    List.flatMap_map _ _ _
  rw [RetransmissionQueue.dataCloneSeg_spec hpos, hbytes, if_pos hlen, h.bytes]

section Finish

variable {pktMbufAlloc : Nat → Option Nat} {len0 : U32} {s : CloneState} {own : DataChain}

theorem finishClone_ids
    (h : Held pktMbufAlloc len0 s own) :
    (finishClone s).map (fun m => some m.id) = own.map fun m => some m.id := by
  have hids := congrArg (List.map some) (headMarked_ids own)
  rw [← h.clones, List.map_map, List.map_map] at hids
  rw [finishClone]
  split
  · rename_i heq
    rw [heq] at hids
    exact hids
  · rename_i m rest heq
    rw [heq] at hids
    exact hids

theorem finishClone_data
    (h : Held pktMbufAlloc len0 s own) :
    (finishClone s).map (fun m => m.data) = own.map fun m => m.data := by
  have hdata := headMarked_data own
  rw [← h.clones] at hdata
  rw [finishClone]
  split
  · rename_i heq
    rwa [heq] at hdata
  · rename_i m rest heq
    rw [heq] at hdata
    exact hdata

/-- The first mbuf of the clone describes the whole of it. -/
theorem finishClone_head
    (h : Held pktMbufAlloc len0 s own) :
    ∀ m ∈ (finishClone s).head?, m.pktLen = len0 ∧ m.nbSegs = BitVec.ofNat 16 own.length := by
  have hlength : s.clones.length = own.length := by
    rw [h.clones, headMarked_length]
  have hfirst : ∀ m ∈ s.clones.head?, m.pktLen = len0 := by
    intro m hm
    rw [h.clones, headMarked] at hm
    split at hm
    · exact h.pktLen m hm
    · cases own with
      | nil =>
          cases hm
      | cons x rest =>
          cases hm
          exact h.pktLen x rfl
  intro m hm
  rw [finishClone] at hm
  split at hm
  · cases hm
  · rename_i x rest heq
    cases hm
    exact ⟨hfirst x (by rw [heq]; rfl), by rw [hlength]⟩

/-- Whatever the marks are, the bytes and the lengths of the clone are right. -/
theorem cloned_of_held
    {m : DataMbuf} {rest : DataChain} {off : Nat}
    (hc : SegDataOk (m :: rest))
    (hoff : off ≤ m.data.length)
    (hlen : off + len0.toNat ≤ (dataBytes (m :: rest)).length)
    (h : Held pktMbufAlloc len0 s own)
    (hparts : own.map (fun m => m.data) =
      rangeParts ((m :: rest).map fun m => m.data) off len0.toNat)
    (hmarks : ∀ p size, (p, size) ∈ marks (finishClone s) ↔
      p < len0.toNat ∧ (off + p, size) ∈ marks (m :: rest)) :
    Cloned (m :: rest) off len0.toNat (finishClone s) := by
  have hdata := finishClone_data h
  have hflat : ∀ c : DataChain, (c.map fun m => m.data).flatten = dataBytes c :=
    fun c => List.flatMap_def.symm
  have hlength : (finishClone s).length = own.length := by
    simpa using congrArg List.length hdata
  have hshort : own.length < 2 ^ 16 := by
    have hle := rangeParts_length_le ((m :: rest).map fun m => m.data) off len0.toNat
    have hsegs := hc.nbSegs m (by simp)
    have hcount := congrArg List.length hparts
    have hbound := m.nbSegs.isLt
    simp only [List.length_map] at hle hcount
    omega
  exact {
    bytes := by
      rw [← hflat, hdata, hparts, rangeParts_flatten (by simpa using hoff) (by rwa [hflat]),
        hflat]
    parts := by
      rw [hdata, hparts]
    pktLen := fun x hx => by
      rw [(finishClone_head h x hx).1]
    nbSegs := fun x hx => by
      rw [(finishClone_head h x hx).2, hlength, BitVec.toNat_ofNat, Nat.mod_eq_of_lt hshort]
    marks := hmarks }

end Finish

/-- Exactly when `data_clone_seg` does what it has to. -/
theorem dataCloneSeg_right_iff
    {pktMbufAlloc : Nat → Option Nat} {m : DataMbuf} {rest : DataChain} {len off : U32}
    (hc : SegDataOk (m :: rest))
    (hoff : off.toNat < m.data.length)
    (hlen : off.toNat + len.toNat ≤ (dataBytes (m :: rest)).length) :
    ∃ r, dataCloneSeg pktMbufAlloc (m :: rest) len off = some r ∧
      (ClonesSegment pktMbufAlloc (m :: rest) off.toNat len.toNat r ↔
        len = 0 ∨
          (∃ n < (rangeParts ((m :: rest).map fun m => m.data) off.toNat len.toNat).length,
            pktMbufAlloc n = none) ∨
          MarksKept (m :: rest) off.toNat len.toNat) := by
  by_cases hzero : len = 0
  · subst hzero
    refine ⟨_, rfl, ?_⟩
    simp [ClonesSegment]
  · have hpos : 0 < len.toNat := by
      bv_omega
    have hm := hc.dataLen m (by simp)
    have htotal := hc.pktLen m (by simp)
    have hsegs := hc.nbSegs m (by simp)
    have hseek : seekSegData (m :: rest) off.toNat = ([], m :: rest, off.toNat) := by
      rw [seekSegData, if_neg (by omega)]
    have hstart : Held pktMbufAlloc len
        { clones := [], passed := [], tstampCount := 0, currentCloneSegLen := 0 } [] :=
      ⟨rfl, rfl, rfl, by simp, rfl, by simp⟩
    obtain ⟨r, hr, hres⟩ :=
      @cloneLoop_spec _ _ _ _ (m :: rest) len off off.toNat hstart (fun _ => rfl) (by simp)
        (by omega) (by simpa using hoff.le) hpos hlen hc.dataLen
        (by rw [← hsegs]; simp; omega) (by rw [← htotal]; simp; omega)
    refine ⟨r, ?_, ?_⟩
    · rw [dataCloneSeg, if_neg hzero, hseek]
      simp only [BitVec.ofNat_toNat, BitVec.setWidth_eq]
      exact hr
    · simp only [hzero, false_or]
      rcases hres with hfail | hdone
      · obtain ⟨n, -, hn, hnone, hallocs⟩ := hfail.refused
        rw [List.length_nil, Nat.zero_add] at hn
        refine iff_of_true ?_ (Or.inl ⟨n, hn, hnone⟩)
        have hfreed := hfail.freed
        rw [hallocs, Nat.add_sub_cancel] at hfreed
        rw [ClonesSegment, hfail.clone]
        refine ⟨Or.inr ⟨n, by omega, hnone⟩, ?_⟩
        rw [hallocs, filterMap_range_of_refused hfreed hnone]
      · obtain ⟨s, own, hclone, hheld, hallocs, hparts, hmarks⟩ := hdone.clone
        rw [List.nil_append] at hheld hallocs
        have hcount : own.length =
            (rangeParts ((m :: rest).map fun m => m.data) off.toNat len.toNat).length := by
          rw [← hparts, List.length_map]
        have hgranted : ¬ ∃ n <
            (rangeParts ((m :: rest).map fun m => m.data) off.toNat len.toNat).length,
              pktMbufAlloc n = none := by
          rintro ⟨n, hn, hnone⟩
          exact Held.granted hheld n (by rw [hcount]; exact hn) hnone
        have hright :=
          marks_right_iff hc.marks hoff hm hheld.fresh hmarks
        simp only [hgranted, false_or]
        rw [ClonesSegment, hclone, ← hright]
        constructor
        · rintro ⟨hcloned, -, -⟩ p size
          rw [← hcloned.marks p size, marks_finishClone, hheld.clones]
        · intro hkept
          refine ⟨?_, hdone.freed, ?_⟩
          · exact cloned_of_held hc (by omega) hlen hheld hparts fun p size => by
              rw [marks_finishClone, hheld.clones]
              exact hkept p size
          · rw [hallocs, ← hheld.ids]
            exact finishClone_ids hheld

/-- A piece of a payload, and a message that begins with a number and a timestamp. -/
def twoMessages (first second : U64) : DataChain :=
  [{ id := 0, data := [1, 2, 3, 4], pktLen := 20, nbSegs := 2, udata64 := first },
    { id := 1, data := [5, 6, 7, 8, 9, 10, 11, 12, 0, 0, 0, 0, 0, 0, 0, 0], pktLen := 16,
      nbSegs := 1, udata64 := second }]

/-- A range from the second byte on, with a mark in the first mbuf. -/
theorem dataCloneSeg_right_iff_first :
    ∃ r, dataCloneSeg some (twoMessages (tstampTxPkt 0 2 8) 0) 19 1 = some r ∧
      ClonesSegment some (twoMessages (tstampTxPkt 0 2 8) 0) 1 19 r := by
  obtain ⟨r, hr, hright⟩ :=
    @dataCloneSeg_right_iff some _ _ 19 1
      (show SegDataOk (twoMessages (tstampTxPkt 0 2 8) 0) from
        ⟨by decide, by decide, by decide, by unfold MarksInside; decide⟩)
      (by decide) (by decide)
  refine ⟨r, hr, hright.2 (Or.inr (Or.inr ⟨fun h => absurd h (by decide), fun _ => ?_⟩))⟩
  exact ⟨by decide, fun h => absurd h (by decide)⟩

/-- The same range with the mark in the second mbuf: it comes out one byte too early. -/
theorem dataCloneSeg_later_mark :
    SegDataOk (twoMessages 0 (tstampTxPkt 0 8 8)) ∧
      ∃ r, dataCloneSeg some (twoMessages 0 (tstampTxPkt 0 8 8)) 19 1 = some r ∧
        ¬ ClonesSegment some (twoMessages 0 (tstampTxPkt 0 8 8)) 1 19 r := by
  refine ⟨⟨by decide, by decide, by decide, by unfold MarksInside; decide⟩, _, rfl, ?_⟩
  rintro ⟨hcloned, -, -⟩
  exact absurd ((hcloned.marks 11 8).2 (by decide)) (by decide)

end Clone

end CloneTimestamps
end Warp17
