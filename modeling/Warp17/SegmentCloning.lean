import Warp17.MbufUserData

/-!
# Cloning a segment with its timestamp marks

`data_clone_seg` makes a chain of indirect mbufs that show a range of the data to be sent.
The marks of the data move to the clones, and the first of them is also recorded in the
first clone, with its offset from the start of the packet.

The loop is described by the clones it has made so far, each with the mark of its own data
only (`Held`); what it holds itself follows from these.

**Results**
- `rangeParts_flatten`: the parts of a range are its bytes.
- `cloneLoop_spec`: what the loop returns, for any answers of the allocator.
-/

namespace Warp17
namespace SegmentCloning

open SequenceComparison MbufChains PackedWords MbufUserData

section Model

/--
`data_seg_attach()`: a fresh mbuf that shows the data of `m`.  Its two branches differ in
the reference count of `m` only.
-/
def dataSegAttach (id : Nat) (m : DataMbuf) : DataMbuf where
  id := id
  data := m.data
  pktLen := BitVec.ofNat 32 m.data.length
  nbSegs := 1
  udata64 := 0

/-- `data_seg_tstamp_attach()`: the clone `mi` with the mark of `m`, if it shows it. -/
def dataSegTstampAttach (mi m : DataMbuf) (mDataOffset : U32) : Option DataMbuf :=
  if !dataIsTstamp m.udata64 then
    none
  else
    let tstampOffset := dataGetTstampOffset m.udata64
    let tstampSize := dataGetTstampSize m.udata64
    if mDataOffset ≤ tstampOffset ∧
        tstampOffset < mDataOffset + BitVec.ofNat 32 mi.data.length then
      some { mi with
        udata64 := tstampTxPkt mi.udata64 (tstampOffset - mDataOffset) tstampSize }
    else
      none

/-- The local variables of the loop. -/
structure CloneState where
  /-- from `clone_seg` to `prev_clone` -/
  clones : DataChain
  /-- the mbufs `seg_data` has moved past -/
  passed : DataChain
  tstampCount : U32
  currentCloneSegLen : U32

/-- What a call returns and changes. -/
structure CloneRun where
  clone : Option DataChain
  /-- the data that was cloned, afterwards -/
  segData : DataChain
  /-- the mbufs given back to the pool -/
  freed : List Nat
  /-- the number of calls of `pkt_mbuf_alloc()` -/
  allocs : Nat

/-- Cut the clone in which the range ends; the second value is the length that is left. -/
def cutLast (segDataLen : U32) (clone : DataMbuf) : DataMbuf × U32 :=
  if segDataLen.toNat ≤ clone.data.length then
    ({ clone with data := clone.data.take segDataLen.toNat }, 0)
  else
    (clone, segDataLen - BitVec.ofNat 32 clone.data.length)

/-- The clone of one mbuf and the length that is left; only the first is adjusted. -/
def cloneMbuf (id : Nat) (m : DataMbuf) (isFirst : Bool) (segDataLen dataOffset : U32) :
    Option (DataMbuf × U32) :=
  let attached := dataSegAttach id m
  let adjusted :=
    if isFirst then
      (rtePktmbufAdj attached.toMbuf dataOffset).map fun b =>
        { attached with toMbuf := { b with pktLen := segDataLen } }
    else
      some attached
  adjusted.map (cutLast segDataLen)

/-- Mark the first mbuf of a chain. -/
def markFirst (offset size : U32) : DataChain → DataChain
  | [] => []
  | m :: rest => { m with udata64 := tstampTxPkt m.udata64 offset size } :: rest

/-- Link a clone, and move the mark of the data to it. -/
def linkClone (s : CloneState) (segData clone : DataMbuf) (dataOffset : U32) : CloneState :=
  match dataSegTstampAttach clone segData dataOffset with
  | none =>
      { clones := s.clones ++ [clone]
        passed := s.passed ++ [segData]
        tstampCount := s.tstampCount
        currentCloneSegLen := s.currentCloneSegLen + BitVec.ofNat 32 clone.data.length }
  | some marked =>
      { clones :=
          if s.tstampCount = 0 then
            markFirst (s.currentCloneSegLen + dataGetTstampOffset marked.udata64)
              (dataGetTstampSize marked.udata64) (s.clones ++ [marked])
          else
            s.clones ++ [marked]
        passed := s.passed ++ [{ segData with udata64 := dataClearTstamp segData.udata64 }]
        tstampCount := s.tstampCount + 1
        currentCloneSegLen := s.currentCloneSegLen + BitVec.ofNat 32 marked.data.length }

/-- The number of segments and the `TSTAMP_MULTI` flag, set after the loop. -/
def finishClone (s : CloneState) : DataChain :=
  match s.clones with
  | [] => []
  | m :: rest =>
      { m with
        nbSegs := BitVec.ofNat 16 s.clones.length
        udata64 := if 1 < s.tstampCount then dataSetTstampMulti m.udata64 else m.udata64 } ::
        rest

/-- The loop of `data_clone_seg()`; `none` stands for a null dereference or a failed assertion. -/
def cloneLoop (pktMbufAlloc : Nat → Option Nat) (dataOffset : U32) :
    DataChain → U32 → CloneState → Option CloneRun
  | [], _, _ => none
  | segData :: rest, segDataLen, s =>
      match pktMbufAlloc s.clones.length with
      | none =>
          some {
            clone := none
            segData := s.passed ++ segData :: rest
            -- the clones made so far are freed as one chain
            freed := s.clones.map fun m => m.id
            allocs := s.clones.length + 1 }
      | some id =>
          match cloneMbuf id segData s.clones.isEmpty segDataLen dataOffset with
          | none => none
          | some (clone, left) =>
              let s := linkClone s segData clone dataOffset
              if left = 0 then
                some {
                  clone := some (finishClone s)
                  segData := s.passed ++ rest
                  freed := []
                  allocs := s.clones.length }
              else
                cloneLoop pktMbufAlloc dataOffset rest left s

/-- The loop that finds the mbuf in which the range begins. -/
def seekSegData : DataChain → Nat → DataChain × DataChain × Nat
  | [], off => ([], [], off)
  | m :: rest, off =>
      if m.data.length ≤ off then
        (m :: (seekSegData rest (off - m.data.length)).1,
          (seekSegData rest (off - m.data.length)).2)
      else
        ([], m :: rest, off)

/-- `data_clone_seg()`; `pktMbufAlloc n` answers the `n`-th request for a clone. -/
def dataCloneSeg (pktMbufAlloc : Nat → Option Nat) (segData : DataChain)
    (segDataLen dataOffset : U32) : Option CloneRun :=
  if segDataLen = 0 then
    some { clone := none, segData := segData, freed := [], allocs := 0 }
  else
    let (passed, segs, offset) := seekSegData segData dataOffset.toNat
    cloneLoop pktMbufAlloc (BitVec.ofNat 32 offset) segs segDataLen
      { clones := [], passed := passed, tstampCount := 0, currentCloneSegLen := 0 }

end Model

section Ranges

variable {α : Type*}

/-- The parts of a byte string, restricted to `len` bytes from byte `drop` of the first part. -/
def rangeParts : List (List α) → Nat → Nat → List (List α)
  | [], _, _ => []
  | p :: ps, drop, len =>
      if len ≤ p.length - drop then
        [(p.drop drop).take len]
      else
        p.drop drop :: rangeParts ps 0 (len - (p.length - drop))

theorem rangeParts_flatten
    {ps : List (List α)} {drop len : Nat}
    (hdrop : ∀ p ∈ ps.head?, drop ≤ p.length)
    (hlen : drop + len ≤ ps.flatten.length) :
    (rangeParts ps drop len).flatten = (ps.flatten.drop drop).take len := by
  induction ps generalizing drop len with
  | nil =>
      simp [rangeParts]
  | cons p ps ih =>
      have hp : drop ≤ p.length := hdrop p (by simp)
      rw [rangeParts, List.flatten_cons, List.drop_append_of_le_length hp]
      split_ifs with hfit
      · rw [List.take_append_of_le_length (by simpa using hfit)]
        simp
      · have hmore : 0 + (len - (p.length - drop)) ≤ ps.flatten.length := by
          rw [List.flatten_cons, List.length_append] at hlen
          omega
        have hrest := ih (by simp) hmore
        have hpart : (p.drop drop).take len = p.drop drop :=
          List.take_of_length_le (by rw [List.length_drop]; omega)
        rw [List.flatten_cons, hrest, List.take_append, hpart, List.drop_zero, List.length_drop]

theorem rangeParts_length_pos
    {p : List α} {ps : List (List α)} {drop len : Nat} :
    0 < (rangeParts (p :: ps) drop len).length := by
  rw [rangeParts]
  split_ifs <;> simp

theorem rangeParts_length_le
    (ps : List (List α)) (drop len : Nat) :
    (rangeParts ps drop len).length ≤ ps.length := by
  induction ps generalizing drop len with
  | nil =>
      simp [rangeParts]
  | cons p ps ih =>
      rw [rangeParts]
      split_ifs
      · simp
      · simpa using ih _ _

end Ranges

section Clipping

/-- The mark of `m`, if it lies in the `len` bytes from `off` on, from there. -/
def clipMark (off len : Nat) (m : DataMbuf) : List (Nat × U32) :=
  (markOf m).filterMap fun x =>
    if off ≤ x.1 ∧ x.1 < off + len then some (x.1 - off, x.2) else none

/-- The marks the loop gives to the clones: `off` is taken from the mark of every mbuf. -/
def cloneMarks (off : Nat) : Nat → DataChain → Nat → List (Nat × U32)
  | _, [], _ => []
  | drop, m :: rest, len =>
      if len ≤ m.data.length - drop then
        clipMark off len m
      else
        clipMark off (m.data.length - drop) m ++
          shiftMarks (m.data.length - drop)
            (cloneMarks off 0 rest (len - (m.data.length - drop)))

theorem markOf_of_fresh
    {m : DataMbuf}
    (hfresh : m.udata64 = 0#64) :
    markOf m = [] := by
  simp [markOf, hfresh]

theorem markOf_length_le
    (m : DataMbuf) :
    (markOf m).length ≤ 1 := by
  rw [markOf]
  split_ifs <;> simp

theorem marks_length_le
    (c : DataChain) :
    (marks c).length ≤ c.length := by
  induction c with
  | nil =>
      simp [marks]
  | cons m rest ih =>
      have hm := markOf_length_le m
      simp only [marks, shiftMarks, List.length_append, List.length_map, List.length_cons]
      omega

/-- The clone gets the mark if and only if it shows the marked byte. -/
theorem dataSegTstampAttach_spec
    {mi m : DataMbuf} {off : U32}
    (hfresh : mi.udata64 = 0#64)
    (hoff : off.toNat < 2 ^ 16)
    (hlen : mi.data.length < 2 ^ 16) :
    (dataSegTstampAttach mi m off = none ∧ clipMark off.toNat mi.data.length m = []) ∨
      ∃ marked, dataSegTstampAttach mi m off = some marked ∧ marked.toMbuf = mi.toMbuf ∧
        dataIsTstamp marked.udata64 = true ∧
        markOf marked = clipMark off.toNat mi.data.length m := by
  have hwindow :
      (off ≤ dataGetTstampOffset m.udata64 ∧
          dataGetTstampOffset m.udata64 < off + BitVec.ofNat 32 mi.data.length) ↔
        (off.toNat ≤ (dataGetTstampOffset m.udata64).toNat ∧
          (dataGetTstampOffset m.udata64).toNat < off.toNat + mi.data.length) := by
    have hsum : (off + BitVec.ofNat 32 mi.data.length).toNat = off.toNat + mi.data.length := by
      rw [BitVec.toNat_add, BitVec.toNat_ofNat]
      omega
    rw [BitVec.le_def, BitVec.lt_def, hsum]
  cases hmark : dataIsTstamp m.udata64 with
  | false =>
      left
      simp [dataSegTstampAttach, clipMark, markOf, hmark]
  | true =>
      by_cases hin :
          off.toNat ≤ (dataGetTstampOffset m.udata64).toNat ∧
            (dataGetTstampOffset m.udata64).toNat < off.toNat + mi.data.length
      · right
        have hlow := dataGetTstampOffset_lt m.udata64
        have hsub : (dataGetTstampOffset m.udata64 - off).toNat =
            (dataGetTstampOffset m.udata64).toNat - off.toNat :=
          BitVec.toNat_sub_of_le hin.1
        refine
          ⟨{ mi with
              udata64 :=
                tstampTxPkt mi.udata64 (dataGetTstampOffset m.udata64 - off)
                  (dataGetTstampSize m.udata64) },
            ?_, rfl, tstampTxPkt_isTstamp _ _ _, ?_⟩
        · rw [dataSegTstampAttach, hmark, Bool.not_true, if_neg Bool.false_ne_true]
          exact if_pos (hwindow.2 hin)
        · simp only [clipMark, markOf, hmark, hfresh, tstampTxPkt_isTstamp, if_true,
            fresh_tstampTxPkt_offset, fresh_tstampTxPkt_size, hsub, List.filterMap_cons, hin,
            and_self, List.filterMap_nil]
          rw [Nat.mod_eq_of_lt (by omega)]
      · left
        constructor
        · rw [dataSegTstampAttach, hmark, Bool.not_true, if_neg Bool.false_ne_true]
          exact if_neg (mt hwindow.1 hin)
        · simp [clipMark, markOf, hmark, hin]

theorem cutLast_data
    (len : U32) (clone : DataMbuf) :
    (cutLast len clone).1 = { clone with data := clone.data.take len.toNat } := by
  rw [cutLast]
  split_ifs with hfit
  · rfl
  · rw [List.take_of_length_le (by omega)]

theorem cutLast_left
    (len : U32) (clone : DataMbuf)
    (hdata : clone.data.length < 2 ^ 16) :
    (cutLast len clone).2.toNat = len.toNat - clone.data.length := by
  rw [cutLast]
  split_ifs with hfit
  · exact (Nat.sub_eq_zero_of_le hfit).symm
  · have hwide : (BitVec.ofNat 32 clone.data.length).toNat = clone.data.length := by
      rw [BitVec.toNat_ofNat, Nat.mod_eq_of_lt (by omega)]
    simp only
    rw [BitVec.toNat_sub_of_le (by rw [BitVec.le_def, hwide]; omega), hwide]

/-- The clone of one mbuf shows its data from the offset on, and has no mark yet. -/
theorem cloneMbuf_spec
    {m : DataMbuf} {id drop : Nat} {isFirst : Bool} {len off : U32}
    (hdrop : drop = if isFirst then off.toNat else 0)
    (hin : drop ≤ m.data.length)
    (hdata : m.data.length < 2 ^ 16) :
    ∃ attached, cloneMbuf id m isFirst len off = some (cutLast len attached) ∧
      attached.id = id ∧ attached.udata64 = 0#64 ∧ attached.data = m.data.drop drop ∧
      (isFirst = true → attached.pktLen = len) := by
  cases isFirst with
  | false =>
      simp only [Bool.false_eq_true, if_false] at hdrop
      subst hdrop
      exact ⟨dataSegAttach id m, rfl, rfl, rfl, rfl, fun h => absurd h (by decide)⟩
  | true =>
      simp only [if_true] at hdrop
      subst hdrop
      have hadj := rtePktmbufAdj_eq (dataSegAttach id m).toMbuf (t := off.toNat) (by omega)
      have hshort : ¬ (dataSegAttach id m).data.length < off.toNat := Nat.not_lt.2 hin
      rw [BitVec.ofNat_toNat, BitVec.setWidth_eq, if_neg hshort] at hadj
      refine ⟨{ dataSegAttach id m with data := m.data.drop off.toNat, pktLen := len },
        ?_, rfl, rfl, rfl, fun _ => rfl⟩
      rw [cloneMbuf]
      simp only [if_true, hadj, Option.map_some]
      rfl

end Clipping

section Loop

/-- The chain the loop holds: its first mark is recorded in its first mbuf. -/
def headMarked (own : DataChain) : DataChain :=
  match (marks own).head? with
  | none => own
  | some (p, size) => markFirst (BitVec.ofNat 32 p) size own

/--
Where the loop stands: `own` are the clones made so far, each with the mark of its own data
only.
-/
structure Held (pktMbufAlloc : Nat → Option Nat) (len : U32) (s : CloneState)
    (own : DataChain) : Prop where
  clones : s.clones = headMarked own
  count : s.tstampCount.toNat = (marks own).length
  current : s.currentCloneSegLen.toNat = (dataBytes own).length
  fresh : ∀ m ∈ own, dataIsTstamp m.udata64 = false → m.udata64 = 0#64
  ids : own.map (fun m => some m.id) = (List.range own.length).map pktMbufAlloc
  pktLen : ∀ m ∈ own.head?, m.pktLen = len

theorem headMarked_of_unmarked
    {own : DataChain}
    (h : marks own = []) :
    headMarked own = own := by
  rw [headMarked, h]
  rfl

/-- A chain that has a mark keeps the first of them when it grows. -/
theorem headMarked_append_of_marked
    {own : DataChain}
    (h : marks own ≠ []) (m : DataMbuf) :
    headMarked (own ++ [m]) = headMarked own ++ [m] := by
  cases own with
  | nil =>
      exact absurd rfl h
  | cons x rest =>
      obtain ⟨⟨p, size⟩, tail, heq⟩ := List.exists_cons_of_ne_nil h
      rw [headMarked, headMarked, marks_append, heq]
      rfl

/-- A clone without a mark does not change what is recorded. -/
theorem headMarked_append_unmarked
    {own : DataChain} {m : DataMbuf}
    (h : markOf m = []) :
    headMarked (own ++ [m]) = headMarked own ++ [m] := by
  by_cases hown : marks own = []
  · have hall : marks (own ++ [m]) = [] := by
      simp [marks_append, hown, marks, h]
    rw [headMarked_of_unmarked hown, headMarked_of_unmarked hall]
  · exact headMarked_append_of_marked hown m

@[simp] theorem headMarked_length
    (own : DataChain) :
    (headMarked own).length = own.length := by
  rw [headMarked]
  split
  · rfl
  · cases own <;> rfl

@[simp] theorem headMarked_ids
    (own : DataChain) :
    (headMarked own).map (fun m => m.id) = own.map fun m => m.id := by
  rw [headMarked]
  split
  · rfl
  · cases own <;> rfl

@[simp] theorem headMarked_data
    (own : DataChain) :
    (headMarked own).map (fun m => m.data) = own.map fun m => m.data := by
  rw [headMarked]
  split
  · rfl
  · cases own <;> rfl

variable {pktMbufAlloc : Nat → Option Nat} {len0 : U32} {s : CloneState} {own : DataChain}

/-- One clone more. -/
theorem Held.link
    (h : Held pktMbufAlloc len0 s own)
    (segData clone : DataMbuf) {off : U32}
    (hfresh : clone.udata64 = 0#64)
    (halloc : pktMbufAlloc own.length = some clone.id)
    (hpkt : own = [] → clone.pktLen = len0)
    (hoff : off.toNat < 2 ^ 16)
    (hdata : clone.data.length < 2 ^ 16)
    (hcount : own.length < 2 ^ 16)
    (htotal : (dataBytes own).length + clone.data.length < 2 ^ 32) :
    ∃ m, m.data = clone.data ∧ markOf m = clipMark off.toNat clone.data.length segData ∧
      Held pktMbufAlloc len0 (linkClone s segData clone off) (own ++ [m]) := by
  have hcurrent : ∀ m : DataMbuf, m.data = clone.data →
      (s.currentCloneSegLen + BitVec.ofNat 32 m.data.length).toNat =
        (dataBytes (own ++ [m])).length := by
    intro m hm
    rw [BitVec.toNat_add, h.current, BitVec.toNat_ofNat, dataBytes_append, hm]
    simp [hm]
    omega
  have hids : ∀ m : DataMbuf, m.id = clone.id →
      (own ++ [m]).map (fun m => some m.id) =
        (List.range (own ++ [m]).length).map pktMbufAlloc := by
    intro m hm
    rw [List.map_append, h.ids, List.length_append, List.length_singleton, List.range_succ,
      List.map_append, List.map_singleton, List.map_singleton, halloc, hm]
  have hpktLen : ∀ m : DataMbuf, m.pktLen = clone.pktLen →
      ∀ x ∈ (own ++ [m]).head?, x.pktLen = len0 := by
    intro m hm x hx
    cases own with
    | nil =>
        cases hx
        rw [hm, hpkt rfl]
    | cons y rest =>
        exact h.pktLen x hx
  rcases @dataSegTstampAttach_spec clone segData off hfresh hoff hdata with
    ⟨hnone, hclip⟩ | ⟨marked, hsome, hsame, hflag, hmark⟩
  · have hunmarked := markOf_of_fresh hfresh
    refine ⟨clone, rfl, by rw [hunmarked, hclip], ?_⟩
    rw [linkClone, hnone]
    exact {
      clones := by
        rw [headMarked_append_unmarked hunmarked, ← h.clones]
      count := by
        rw [h.count, marks_append]
        simp [marks, hunmarked]
      current := hcurrent clone rfl
      fresh := by
        intro m hm hfalse
        rcases List.mem_append.1 hm with hm | hm
        · exact h.fresh m hm hfalse
        · rw [List.mem_singleton.1 hm, hfresh]
      ids := hids clone rfl
      pktLen := hpktLen clone rfl }
  · have hd : marked.data = clone.data := congrArg Mbuf.data hsame
    have hone : marks [marked] =
        [((dataGetTstampOffset marked.udata64).toNat, dataGetTstampSize marked.udata64)] := by
      simp [marks, markOf, hflag]
    have hmarks := marks_length_le own
    refine ⟨marked, hd, hmark, ?_⟩
    rw [linkClone, hsome]
    exact {
      clones := by
        by_cases hown : marks own = []
        · have hzero : s.tstampCount = 0 := by
            apply BitVec.eq_of_toNat_eq
            rw [h.count, hown]
            rfl
          have hplace : BitVec.ofNat 32
              ((dataBytes own).length + (dataGetTstampOffset marked.udata64).toNat) =
                s.currentCloneSegLen + dataGetTstampOffset marked.udata64 := by
            rw [BitVec.ofNat_add, ← h.current, BitVec.ofNat_toNat, BitVec.setWidth_eq,
              BitVec.ofNat_toNat, BitVec.setWidth_eq]
          have hall := marks_append own [marked]
          rw [hown, hone, List.nil_append] at hall
          rw [headMarked, hall]
          simp only [hzero, if_true, shiftMarks, List.map_cons, List.head?_cons, hplace,
            h.clones, headMarked_of_unmarked hown]
        · have hpos : s.tstampCount ≠ 0 := by
            intro hzero
            have hnone := h.count
            rw [hzero] at hnone
            exact hown (List.length_eq_zero_iff.1 hnone.symm)
          simp only [hpos, if_false, headMarked_append_of_marked hown, ← h.clones]
      count := by
        have hnext : (s.tstampCount + 1).toNat = s.tstampCount.toNat + 1 := by
          have hlow := h.count
          bv_omega
        rw [hnext, h.count, marks_append, hone]
        simp [shiftMarks]
      current := hcurrent marked hd
      fresh := by
        intro m hm hfalse
        rcases List.mem_append.1 hm with hm | hm
        · exact h.fresh m hm hfalse
        · rw [List.mem_singleton.1 hm, hflag] at hfalse
          exact absurd hfalse (by decide)
      ids := hids marked (congrArg Mbuf.id hsame)
      pktLen := hpktLen marked (congrArg Mbuf.pktLen hsame) }

/-- The loop ended because a request for a clone was refused. -/
structure LoopFailed (pktMbufAlloc : Nat → Option Nat) (start parts : Nat) (r : CloneRun) :
    Prop where
  clone : r.clone = none
  refused : ∃ n, start ≤ n ∧ n < start + parts ∧ pktMbufAlloc n = none ∧ r.allocs = n + 1
  freed : r.freed.map some = (List.range (r.allocs - 1)).map pktMbufAlloc

/-- The loop ended with the whole range cloned; `more` are the clones made meanwhile. -/
structure LoopDone (pktMbufAlloc : Nat → Option Nat) (len0 : U32) (own : DataChain)
    (parts : List (List UInt8)) (newMarks : List (Nat × U32)) (r : CloneRun) : Prop where
  clone : ∃ s more, r.clone = some (finishClone s) ∧
    Held pktMbufAlloc len0 s (own ++ more) ∧ r.allocs = (own ++ more).length ∧
    more.map (fun m => m.data) = parts ∧ marks more = newMarks
  freed : r.freed = []

/-- The loop from any point on, for any answers of the allocator. -/
theorem cloneLoop_spec
    {segs : DataChain} {len off : U32} {drop : Nat}
    (h : Held pktMbufAlloc len0 s own)
    (hfirst : own = [] → len = len0)
    (hdrop : drop = if own.isEmpty then off.toNat else 0)
    (hoff : off.toNat < 2 ^ 16)
    (hin : ∀ m ∈ segs.head?, drop ≤ m.data.length)
    (hpos : 0 < len.toNat)
    (hlen : drop + len.toNat ≤ (dataBytes segs).length)
    (hdata : ∀ m ∈ segs, m.data.length < 2 ^ 16)
    (hcount : own.length + segs.length < 2 ^ 16)
    (htotal : (dataBytes own).length + (dataBytes segs).length < 2 ^ 32) :
    ∃ r, cloneLoop pktMbufAlloc off segs len s = some r ∧
      (LoopFailed pktMbufAlloc own.length
          (rangeParts (segs.map fun m => m.data) drop len.toNat).length r ∨
        LoopDone pktMbufAlloc len0 own
          (rangeParts (segs.map fun m => m.data) drop len.toNat)
          (cloneMarks off.toNat drop segs len.toNat) r) := by
  induction segs generalizing len s own drop with
  | nil =>
      simp at hlen
      omega
  | cons segData rest ih =>
      have hcalls : s.clones.length = own.length := by
        rw [h.clones, headMarked_length]
      have hempty : s.clones.isEmpty = own.isEmpty := by
        rw [Bool.eq_iff_iff, List.isEmpty_iff_length_eq_zero, hcalls,
          ← List.isEmpty_iff_length_eq_zero]
      rw [cloneLoop, hcalls]
      cases halloc : pktMbufAlloc own.length with
      | none =>
          refine ⟨_, rfl, Or.inl ?_⟩
          exact {
            clone := rfl
            refused := ⟨own.length, le_refl _,
              Nat.lt_add_of_pos_right rangeParts_length_pos, halloc, rfl⟩
            freed := by
              simp only [h.clones, headMarked_ids, List.map_map, Nat.add_sub_cancel]
              exact h.ids }
      | some id =>
          have hin' := hin segData (by simp)
          have hdata' := hdata segData (by simp)
          obtain ⟨attached, hclone, hid, hfresh, hshow, hpkt⟩ :=
            @cloneMbuf_spec segData id drop own.isEmpty len off hdrop hin' hdata'
          have hshown : attached.data.length = segData.data.length - drop := by
            rw [hshow, List.length_drop]
          have hcut := cutLast_data len attached
          have hleft := cutLast_left len attached (by omega)
          simp only [hempty, hclone]
          generalize cutLast len attached = piece at hcut hleft
          obtain ⟨clone, left⟩ := piece
          simp only at hcut hleft ⊢
          have hsize : clone.data.length = min len.toNat (segData.data.length - drop) := by
            rw [hcut]
            simp [hshown]
          simp only [dataBytes_cons, List.length_append, List.length_cons] at hlen hcount htotal
          obtain ⟨m, hm, hmark, hheld⟩ :=
            h.link segData clone (by rw [hcut, hfresh]) (by rw [halloc, hcut, hid])
              (fun hnil => by rw [hcut, hpkt (by simp [hnil]), hfirst hnil])
              hoff (by omega) (by omega) (by omega)
          by_cases hfit : len.toNat ≤ segData.data.length - drop
          · -- the range ends in this mbuf
            have hzero : left = 0 := by
              apply BitVec.eq_of_toNat_eq
              rw [hleft, hshown]
              exact Nat.sub_eq_zero_of_le hfit
            rw [if_pos hzero]
            refine ⟨_, rfl, Or.inr ?_⟩
            exact {
              clone := by
                refine ⟨_, [m], rfl, hheld, ?_, ?_, ?_⟩
                · simp only [hheld.clones, headMarked_length]
                · rw [List.map_singleton, List.map_cons, rangeParts, if_pos hfit, hm, hcut,
                    hshow]
                · rw [cloneMarks, if_pos hfit, marks, marks, shiftMarks_nil, List.append_nil,
                    hmark, hsize, Nat.min_eq_left hfit]
              freed := rfl }
          · have hlong := Nat.le_of_not_le hfit
            have hmore : left ≠ 0 := by
              intro hzero
              rw [hzero, hshown] at hleft
              have hz : (0 : U32).toNat = 0 := rfl
              omega
            have hrest : left.toNat = len.toNat - (segData.data.length - drop) := by
              rw [hleft, hshown]
            have hml : m.data.length = segData.data.length - drop := by
              rw [hm, hsize, Nat.min_eq_right hlong]
            have hmd : m.data = segData.data.drop drop := by
              rw [hm, hcut, hshow]
              exact List.take_of_length_le (by rw [List.length_drop]; omega)
            rw [if_neg hmore]
            obtain ⟨r, hr, hres⟩ := @ih _ _ left 0 hheld
              (fun hnil => absurd hnil (by simp)) (by simp) (fun _ _ => Nat.zero_le _)
              (by omega) (by omega) (fun x hx => hdata x (by simp [hx]))
              (by simp; omega) (by simp [hml]; omega)
            refine ⟨r, hr, ?_⟩
            rw [List.map_cons, rangeParts, if_neg hfit, cloneMarks, if_neg hfit, ← hrest]
            rcases hres with hfail | hdone
            · left
              obtain ⟨n, hn, hn', hnone, hallocs⟩ := hfail.refused
              simp only [List.length_append, List.length_cons, List.length_nil] at hn hn'
              exact {
                clone := hfail.clone
                refused := ⟨n, by omega, by simp; omega, hnone, hallocs⟩
                freed := hfail.freed }
            · right
              obtain ⟨s', more, hc, hheld', hallocs, hparts, hmarks⟩ := hdone.clone
              rw [List.append_assoc] at hheld' hallocs
              exact {
                clone := by
                  refine ⟨s', m :: more, hc, hheld', hallocs, ?_, ?_⟩
                  · rw [List.map_cons, hparts, hmd]
                  · rw [marks, hmarks, hmark, hml, hsize, Nat.min_eq_right hlong]
                freed := hdone.freed }

end Loop

end SegmentCloning
end Warp17
