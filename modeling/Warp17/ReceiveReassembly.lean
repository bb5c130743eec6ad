import Warp17.ReceiveBuffer
import Warp17.StreamSlices
import Warp17.GuardedRuns

/-!
# Reassembly of the peer's byte stream

The peer's bytes are a stream; position `0` is the byte that `RCV.NXT` names when the run
starts.  A run is a list of calls of `tcp_data_handle`, each with a segment cut from the
stream and with the answers that the application gives during the call.

The receive buffer is well formed (`Blocks`) when its blocks are sorted and disjoint, each
holds a slice of the stream, and each is labelled with the position of its first byte.  A
trim of a stored block keeps the label of the block, so the runs considered are those in
which no stored block loses only a part of its bytes (`KeepsLabels`).

**Results**
- `rcvStep_inv`: a call that keeps the labels preserves the invariant.
- `tcpDataHandle_delivers_prefix`: the consumed bytes are a prefix of the stream and
  `RCV.NXT` advances by their number.
- `tcpDataHandle_queue_progress`: the buffer stays well formed, and the byte at `RCV.NXT`,
  once received, heads the buffer and is shown by the next call that reaches the delivery
  loop.
-/

namespace Warp17
namespace ReceiveReassembly

open SerialArithmetic StreamSlices GuardedRuns SequenceComparison MbufChains ControlBlock
open ReceiveBuffer

/-- One call of `tcp_data_handle`: a segment and what the application does meanwhile. -/
structure RcvInput where
  /-- stream position of the first byte of the segment -/
  start : Nat
  mbuf : Chain
  answer : DeliverCb

/-- The number of bytes of the segment. -/
def RcvInput.len (i : RcvInput) : Nat :=
  (chainBytes i.mbuf).length

/-- The control block and what has been observed of it since the run started. -/
structure RcvState where
  tcb : Tcb
  /-- the bytes consumed by the application, in order -/
  consumed : List UInt8
  /-- start and length of every segment handled -/
  received : List (Nat × Nat)
  /-- the deliveries of the last call -/
  shown : List DeliverCall
  asserted : Bool

/-- The bytes the application took at a delivery. -/
def DeliverCall.bytes (d : DeliverCall) : List UInt8 :=
  d.shown.take d.consumed.toNat

/-- The state before the first call. -/
def rcvInit (tcb : Tcb) : RcvState :=
  { tcb := tcb, consumed := [], received := [], shown := [], asserted := false }

/-- The call of `tcp_data_handle` for a segment, when position `0` is numbered `base`. -/
def rcvCall (base : U32) (s : RcvState) (i : RcvInput) : HandleResult :=
  tcpDataHandle s.tcb i.mbuf (seqAt base i.start) (BitVec.ofNat 32 i.len) i.answer

/-- One call. -/
def rcvStep (base : U32) (s : RcvState) (i : RcvInput) : RcvState :=
  let r := rcvCall base s i
  { tcb := r.tcb
    consumed := s.consumed ++ r.calls.flatMap DeliverCall.bytes
    received := s.received ++ [(i.start, i.len)]
    shown := r.calls
    asserted := s.asserted || r.asserted }

/--
A segment cut from the stream, inside the window of half the sequence space around
`RCV.NXT`, in a well-formed chain of a size that a packet can have.
-/
structure CutFrom (stream : Nat → UInt8) (s : RcvState) (i : RcvInput) : Prop where
  chain : ChainOk i.mbuf
  bytes : chainBytes i.mbuf = slice stream i.start i.len
  size : i.len < 2 ^ 16
  low : s.consumed.length ≤ i.start + 2 ^ 31
  high : i.start + i.len < s.consumed.length + 2 ^ 31

/-- The application never consumes more than it is shown. -/
def AnswersInBounds (answer : DeliverCb) : Prop :=
  ∀ k bytes n, answer k bytes = .consume n → n.toNat ≤ bytes.length

/-- Where the code looks for the place of the segment: at `RCV.NXT` or later. -/
def placeSeq (tcb : Tcb) (segSeq : U32) : U32 :=
  if segLT segSeq tcb.rcv.nxt then tcb.rcv.nxt else segSeq

/--
No block starts inside the new bytes and ends after them.  New bytes that start with a block
count as starting before it when another block ends there, because they are merged with that
one.
-/
def NoTailTrim (buf : List TcbBufHdr) (start stop : U32) : Prop :=
  ∀ b ∈ buf,
    (segLT start b.segSeq = true ∨
      (start = b.segSeq ∧ ∃ prev ∈ buf, prev.segEnd = start)) →
    segLT b.segSeq stop = true →
    segLT stop b.segEnd = false

/-- The application takes each of the blocks it is shown whole, or not at all. -/
def WholeBlocks (answer : DeliverCb) (calls : List DeliverCall) : Prop :=
  ∀ k call, calls[k]? = some call →
    answer k call.shown = .close ∨
    answer k call.shown = .consume 0 ∨
    answer k call.shown = .consume (BitVec.ofNat 32 call.shown.length)

/--
No stored block loses only a part of its bytes during the call: the segment covers no block
in front only, the application takes each block it is shown whole or not at all, and a trim of
the segment itself does not end where `data_adj_chain` would leave a chain without its length.
-/
structure KeepsLabels (tcb : Tcb) (mbuf : Chain) (segSeq segLen : U32)
    (answer : DeliverCb) : Prop where
  noTailTrim : NoTailTrim tcb.rcvBuf (placeSeq tcb segSeq) (segSeq + segLen)
  wholeBlocks : WholeBlocks answer (tcpDataHandle tcb mbuf segSeq segLen answer).calls
  /-- the trim of what was received before -/
  frontTrim :
    segLT segSeq tcb.rcv.nxt = true →
      AdjExact mbuf 0 (segDIFF tcb.rcv.nxt segSeq).toNat
  /-- the trim of what the block that the segment extends already holds -/
  overlapTrim :
    ∀ b ∈ tcb.rcvBuf,
      segLE b.segSeq (placeSeq tcb segSeq) = true →
      segLT (placeSeq tcb segSeq) b.segEnd = true →
      AdjExact mbuf (segDIFF (placeSeq tcb segSeq) segSeq).toNat
        (segDIFF b.segEnd segSeq).toNat

section Blocks

variable (stream : Nat → UInt8) (base : U32) (hi : Nat)

/-- The number of bytes a block holds. -/
def blockSize (b : TcbBufHdr) : Nat :=
  (chainBytes b.mbuf).length

/--
The blocks start at the positions `ps`, the first not before `lo`, are disjoint, end before
`hi`, and each holds the bytes of the stream from its own label on.
-/
def Blocks : Nat → List TcbBufHdr → List Nat → Prop
  | _, [], [] => True
  | lo, b :: buf, p :: ps =>
      lo ≤ p ∧
      b.segSeq = seqAt base p ∧
      ChainOk b.mbuf ∧
      chainBytes b.mbuf = slice stream p (blockSize b) ∧
      p + blockSize b < hi ∧
      Blocks (p + blockSize b) buf ps
  | _, _, _ => False

/-- The positions that the blocks hold. -/
def Covered : List TcbBufHdr → List Nat → Nat → Prop
  | b :: buf, p :: ps, q => (p ≤ q ∧ q < p + blockSize b) ∨ Covered buf ps q
  | _, _, _ => False

variable {stream base hi}

theorem blocks_mono
    {lo lo' hi' : Nat} {buf : List TcbBufHdr} {ps : List Nat}
    (hlo : lo' ≤ lo)
    (hhi : hi ≤ hi')
    (h : Blocks stream base hi lo buf ps) :
    Blocks stream base hi' lo' buf ps := by
  induction buf generalizing lo lo' ps with
  | nil =>
      cases ps with
      | nil =>
          trivial
      | cons p ps =>
          exact h
  | cons b buf ih =>
      cases ps with
      | nil =>
          exact h
      | cons p ps =>
          obtain ⟨hp, hseq, hok, hbytes, hend, hrest⟩ := h
          exact ⟨by omega, hseq, hok, hbytes, by omega, ih le_rfl hrest⟩

theorem covered_ge
    {lo q : Nat} {buf : List TcbBufHdr} {ps : List Nat}
    (h : Blocks stream base hi lo buf ps)
    (hq : Covered buf ps q) :
    lo ≤ q := by
  induction buf generalizing lo ps with
  | nil =>
      cases ps <;> exact hq.elim
  | cons b buf ih =>
      cases ps with
      | nil =>
          exact hq.elim
      | cons p ps =>
          obtain ⟨hp, hseq, hok, hbytes, hend, hrest⟩ := h
          rcases hq with hq | hq
          · omega
          · have := ih hrest hq
            omega

/-- The end of a block, as the code computes it. -/
theorem segEnd_eq
    {b : TcbBufHdr} {p : Nat}
    (hseq : b.segSeq = seqAt base p)
    (hok : ChainOk b.mbuf) :
    b.segEnd = seqAt base (p + blockSize b) := by
  rw [TcbBufHdr.segEnd, hseq, TcbBufHdr.pktLen, hok.pktLen, seqAt_add]
  rfl

theorem blocks_label
    {lo : Nat} {buf : List TcbBufHdr} {ps : List Nat}
    (h : Blocks stream base hi lo buf ps) :
    ∀ b ∈ buf, ∃ q, lo ≤ q ∧ q < hi ∧ b.segSeq = seqAt base q := by
  induction buf generalizing lo ps with
  | nil =>
      simp
  | cons b buf ih =>
      cases ps with
      | nil =>
          exact h.elim
      | cons p ps =>
          obtain ⟨hp, hseq, hok, hbytes, hend, hrest⟩ := h
          intro x hx
          rcases List.mem_cons.1 hx with rfl | hx
          · exact ⟨p, hp, by omega, hseq⟩
          · obtain ⟨q, hq, hqhi, hqs⟩ := ih hrest x hx
            exact ⟨q, by omega, hqhi, hqs⟩

theorem blocks_end
    {lo : Nat} {buf : List TcbBufHdr} {ps : List Nat}
    (h : Blocks stream base hi lo buf ps) :
    ∀ b ∈ buf, ∃ q, lo ≤ q ∧ q < hi ∧ b.segEnd = seqAt base q := by
  induction buf generalizing lo ps with
  | nil =>
      simp
  | cons b buf ih =>
      cases ps with
      | nil =>
          exact h.elim
      | cons p ps =>
          obtain ⟨hp, hseq, hok, hbytes, hend, hrest⟩ := h
          intro x hx
          rcases List.mem_cons.1 hx with rfl | hx
          · exact ⟨p + blockSize x, by omega, hend, segEnd_eq hseq hok⟩
          · obtain ⟨q, hq, hqhi, hqs⟩ := ih hrest x hx
            exact ⟨q, by omega, hqhi, hqs⟩

/-- Blocks from `a` on are labelled `a` or later. -/
theorem blocks_from
    {n lo a : Nat} {buf : List TcbBufHdr} {ps : List Nat}
    (hn : n ≤ a)
    (hhi : hi ≤ n + 2 ^ 31)
    (ha : a ≤ lo)
    (h : Blocks stream base hi lo buf ps) :
    ∀ b ∈ buf, segLT (seqAt base a) b.segSeq = true ∨
      (a = lo ∧ seqAt base a = b.segSeq) := by
  intro b hb
  obtain ⟨q, hq, hqhi, hqs⟩ := blocks_label h b hb
  rcases Nat.eq_or_lt_of_le (Nat.le_trans ha hq) with rfl | hlt
  · exact Or.inr ⟨by omega, hqs.symm⟩
  · left
    rw [hqs, segLT_seqAt base (by omega) (by omega)]
    simpa using hlt

/-- A covered lowest position heads the buffer. -/
theorem head_of_covered
    {lo : Nat} {buf : List TcbBufHdr} {ps : List Nat}
    (h : Blocks stream base hi lo buf ps)
    (hq : Covered buf ps lo) :
    ∃ b rest, buf = b :: rest ∧ b.segSeq = seqAt base lo := by
  cases buf with
  | nil =>
      cases ps <;> exact hq.elim
  | cons b buf =>
      cases ps with
      | nil =>
          exact hq.elim
      | cons p ps =>
          obtain ⟨hp, hseq, hok, hbytes, hend, hrest⟩ := h
          refine ⟨b, buf, rfl, ?_⟩
          rcases hq with hq | hq
          · rw [hseq, show p = lo by omega]
          · have hge := covered_ge hrest hq
            have hpos := hok.bytes_pos
            simp only [blockSize] at hge
            omega

/--
Dropping the blocks that end by `e`: what is left starts at `e` or later and still holds
every later position.
-/
theorem consumeFollowing_spec
    {n lo e : Nat} {buf : List TcbBufHdr} {ps : List Nat}
    (hn : n ≤ lo)
    (hhi : hi ≤ n + 2 ^ 31)
    (hne : n ≤ e)
    (hehi : e < hi)
    (h : Blocks stream base hi lo buf ps)
    (hkeep :
      ∀ b ∈ buf, segLT b.segSeq (seqAt base e) = true →
        segLT (seqAt base e) b.segEnd = false) :
    ∃ buf' ps',
      consumeFollowing (seqAt base e) buf = some buf' ∧
      Blocks stream base hi e buf' ps' ∧
      ∀ q, e ≤ q → Covered buf ps q → Covered buf' ps' q := by
  induction buf generalizing lo ps with
  | nil =>
      cases ps with
      | nil =>
          exact ⟨[], [], rfl, trivial, fun q _ hq => hq⟩
      | cons p ps =>
          exact h.elim
  | cons b buf ih =>
      cases ps with
      | nil =>
          exact h.elim
      | cons p ps =>
          obtain ⟨hp, hseq, hok, hbytes, hend, hrest⟩ := h
          have hpos : 0 < blockSize b := hok.bytes_pos
          have hsegEnd := segEnd_eq hseq hok
          have hge : segGE (seqAt base e) b.segSeq = decide (p ≤ e) := by
            rw [segGE, hseq, segLE_seqAt base (by omega) (by omega)]
          have hlt : segLT (seqAt base e) b.segEnd = decide (e < p + blockSize b) := by
            rw [hsegEnd, segLT_seqAt base (by omega) (by omega)]
          by_cases hpe : p ≤ e
          · by_cases hinside : e < p + blockSize b
            · -- only a block that starts at `e` itself may end later
              have hbefore : segLT b.segSeq (seqAt base e) = decide (p < e) := by
                rw [hseq, segLT_seqAt base (by omega) (by omega)]
              have hpe' : p = e := by
                by_contra hne'
                have hk := hkeep b (by simp) (by rw [hbefore]; simp; omega)
                rw [hlt] at hk
                simp at hk
                omega
              subst hpe'
              have hdiff : segDIFF (seqAt base p) b.segSeq = 0 := by
                rw [segDIFF, hseq]
                simp
              have hmbuf : dataAdjChain b.mbuf 0 = b.mbuf := dataAdjChain_zero hok
              have hval : consumeFollowing (seqAt base p) (b :: buf) = some (b :: buf) := by
                rw [consumeFollowing, hge, hlt, hdiff, hmbuf]
                simp only [hinside, le_refl, decide_true, if_true]
                split
                · rename_i hnil
                  exact absurd hnil hok.nonempty
                · rfl
              exact ⟨b :: buf, p :: ps, hval, ⟨le_rfl, hseq, hok, hbytes, hend, hrest⟩,
                fun q _ hq => hq⟩
            · obtain ⟨buf', ps', hval, hblocks, hcov⟩ :=
                ih (by omega) hrest (fun x hx => hkeep x (by simp [hx]))
              refine ⟨buf', ps', ?_, hblocks, ?_⟩
              · rw [consumeFollowing, hge, hlt]
                simpa [hpe, hinside] using hval
              · intro q hq hqc
                rcases hqc with hqc | hqc
                · omega
                · exact hcov q hq hqc
          · refine ⟨b :: buf, p :: ps, ?_, ⟨by omega, hseq, hok, hbytes, hend, hrest⟩,
              fun q _ hq => hq⟩
            rw [consumeFollowing, hge]
            simp [hpe]

/-- A node that holds the bytes from `p` up to `e`, followed by what is left of the others. -/
theorem storedBefore_spec
    (seg : TcbBufHdr)
    {n lo p e : Nat} {buf : List TcbBufHdr} {ps : List Nat}
    (hn : n ≤ lo)
    (hhi : hi ≤ n + 2 ^ 31)
    (hnp : n ≤ p)
    (hseq : seg.segSeq = seqAt base p)
    (hok : ChainOk seg.mbuf)
    (hbytes : chainBytes seg.mbuf = slice stream p (blockSize seg))
    (hsize : p + blockSize seg = e)
    (hehi : e < hi)
    (h : Blocks stream base hi lo buf ps)
    (hkeep :
      ∀ b ∈ buf, segLT b.segSeq (seqAt base e) = true →
        segLT (seqAt base e) b.segEnd = false) :
    ∃ buf' ps',
      storedBefore seg buf = .stored (seg :: buf') ∧
      Blocks stream base hi p (seg :: buf') (p :: ps') ∧
      ∀ q, Covered buf ps q ∨ (p ≤ q ∧ q < e) → p ≤ q →
        Covered (seg :: buf') (p :: ps') q := by
  have hsegEnd : seg.segEnd = seqAt base e := by
    rw [segEnd_eq hseq hok, hsize]
  obtain ⟨buf', ps', hval, hblocks, hcov⟩ :=
    consumeFollowing_spec hn hhi (by omega) hehi h hkeep
  refine ⟨buf', ps', ?_, ?_, ?_⟩
  · rw [storedBefore, hsegEnd, hval]
  · exact ⟨le_rfl, hseq, hok, hbytes, by omega, by rwa [hsize]⟩
  · intro q hq hpq
    rcases Nat.lt_or_ge q e with hlt | hge
    · exact Or.inl ⟨hpq, by omega⟩
    · rcases hq with hq | hq
      · exact Or.inr (hcov q hge hq)
      · omega

/-- A block merged with the bytes that follow it. -/
theorem merge_spec
    {cur : TcbBufHdr} {mbuf : Chain} {p m : Nat}
    (hcur : ChainOk cur.mbuf)
    (hcurBytes : chainBytes cur.mbuf = slice stream p (blockSize cur))
    (hmbuf : ChainOk mbuf)
    (hmbufBytes : chainBytes mbuf = slice stream (p + blockSize cur) m) :
    ChainOk (dataMbufMerge cur.mbuf mbuf) ∧
      blockSize { cur with mbuf := dataMbufMerge cur.mbuf mbuf } = blockSize cur + m ∧
      chainBytes (dataMbufMerge cur.mbuf mbuf) = slice stream p (blockSize cur + m) := by
  have hjoin : chainBytes (dataMbufMerge cur.mbuf mbuf) = slice stream p (blockSize cur + m) := by
    rw [dataMbufMerge_bytes mbuf hcur.nonempty, hcurBytes, hmbufBytes, slice_append]
  refine ⟨dataMbufMerge_wellFormed hcur hmbuf, ?_, hjoin⟩
  rw [blockSize, hjoin, length_slice]

/-- Extending `cur` by the bytes after it and removing what that makes redundant. -/
theorem extend_spec
    {n lo p m : Nat} {cur : TcbBufHdr} {mbuf : Chain} {buf : List TcbBufHdr} {ps : List Nat}
    (hn : n ≤ lo)
    (hhi : hi ≤ n + 2 ^ 31)
    (hcur : Blocks stream base hi lo (cur :: buf) (p :: ps))
    (hmbuf : ChainOk mbuf)
    (hmbufBytes : chainBytes mbuf = slice stream (p + blockSize cur) m)
    (hehi : p + blockSize cur + m < hi)
    (hkeep :
      ∀ b ∈ buf, segLT b.segSeq (seqAt base (p + blockSize cur + m)) = true →
        segLT (seqAt base (p + blockSize cur + m)) b.segEnd = false) :
    ∃ buf' ps',
      storedBefore { cur with mbuf := dataMbufMerge cur.mbuf mbuf } buf = .stored buf' ∧
      buf' ≠ [] ∧
      Blocks stream base hi lo buf' ps' ∧
      ∀ q, Covered (cur :: buf) (p :: ps) q ∨ (p ≤ q ∧ q < p + blockSize cur + m) →
        Covered buf' ps' q := by
  obtain ⟨hp, hseq, hok, hbytes, hend, hrest⟩ := hcur
  obtain ⟨hmok, hmsize, hmbytes⟩ := merge_spec hok hbytes hmbuf hmbufBytes
  obtain ⟨buf', ps', hval, hblocks, hcov⟩ :=
    storedBefore_spec { cur with mbuf := dataMbufMerge cur.mbuf mbuf }
      (by omega) hhi (by omega) hseq hmok (by rw [hmsize]; exact hmbytes)
      (by rw [hmsize]; omega) hehi hrest hkeep
  refine ⟨_, p :: ps', hval, by simp, blocks_mono hp le_rfl hblocks, ?_⟩
  intro q hq
  rcases hq with (hq | hq) | hq
  · exact hcov q (Or.inr (by omega)) hq.1
  · have := covered_ge hrest hq
    exact hcov q (Or.inl hq) (by omega)
  · exact hcov q (Or.inr hq) hq.1

/-! ### The place of a segment -/

/-- A segment from position `a` on meets a block from `p` on, in one half of the numbers. -/
structure Meets (base : U32) (n hi a p : Nat) (new cur : TcbBufHdr) : Prop where
  seq : new.segSeq = seqAt base a
  ok : ChainOk new.mbuf
  curSeq : cur.segSeq = seqAt base p
  curOk : ChainOk cur.mbuf
  newFrom : n ≤ a
  newTo : a + blockSize new < hi
  curFrom : n ≤ p
  curTo : p + blockSize cur < hi
  near : hi ≤ n + 2 ^ 31

section Meeting

variable {n a p : Nat} {new cur : TcbBufHdr} {buf : List TcbBufHdr}

theorem Meets.contained
    (h : Meets base n hi a p new cur) :
    tcbRcvbufContained new cur =
      decide (p ≤ a ∧ a + blockSize new ≤ p + blockSize cur) := by
  obtain ⟨hseq, hok, hcseq, hcok, ha, hae, hp, hpe, hhi⟩ := h
  rw [tcbRcvbufContained, segGE, segEnd_eq hseq hok, segEnd_eq hcseq hcok, hseq, hcseq,
    segLE_seqAt base (by omega) (by omega), segLE_seqAt base (by omega) (by omega)]
  simp

theorem Meets.before
    (h : Meets base n hi a p new cur) :
    segLT new.segSeq cur.segSeq = decide (a < p) := by
  obtain ⟨hseq, hok, hcseq, hcok, ha, hae, hp, hpe, hhi⟩ := h
  rw [hseq, hcseq, segLT_seqAt base (by omega) (by omega)]

theorem Meets.adjacent
    (h : Meets base n hi a p new cur) :
    cur.segEnd = new.segSeq ↔ p + blockSize cur = a := by
  obtain ⟨hseq, hok, hcseq, hcok, ha, hae, hp, hpe, hhi⟩ := h
  rw [segEnd_eq hcseq hcok, hseq, segEQ_seqAt base (by omega) (by omega)]

theorem Meets.inside
    (h : Meets base n hi a p new cur) :
    (segLE cur.segSeq new.segSeq && segLT new.segSeq cur.segEnd) =
      decide (p ≤ a ∧ a < p + blockSize cur) := by
  obtain ⟨hseq, hok, hcseq, hcok, ha, hae, hp, hpe, hhi⟩ := h
  rw [segEnd_eq hcseq hcok, hcseq, hseq, segLE_seqAt base (by omega) (by omega),
    segLT_seqAt base (by omega) (by omega)]
  simp

theorem Meets.overlap
    (h : Meets base n hi a p new cur)
    (hin : a < p + blockSize cur) :
    segDIFF cur.segEnd new.segSeq = BitVec.ofNat 32 (p + blockSize cur - a) := by
  rw [segEnd_eq h.curSeq h.curOk, h.seq, segDIFF_seqAt base hin.le]

/-- The walk goes by the positions. -/
theorem placeSegment_contained
    (h : Meets base n hi a p new cur)
    (hcont : p ≤ a ∧ a + blockSize new ≤ p + blockSize cur) :
    placeSegment new (cur :: buf) = .contained := by
  rw [placeSegment, h.contained, if_pos (decide_eq_true hcont)]

theorem placeSegment_before
    (h : Meets base n hi a p new cur)
    (hbefore : a < p) :
    placeSegment new (cur :: buf) = storedBefore new (cur :: buf) := by
  rw [placeSegment, h.contained, h.before, if_neg (by simp; omega), if_pos (decide_eq_true hbefore)]

theorem placeSegment_adjacent
    (h : Meets base n hi a p new cur)
    (hadj : p + blockSize cur = a) :
    placeSegment new (cur :: buf) =
      storedBefore { cur with mbuf := dataMbufMerge cur.mbuf new.mbuf } buf := by
  have hpos := h.ok.bytes_pos
  have hsize : blockSize new = (chainBytes new.mbuf).length := rfl
  rw [placeSegment, h.contained, h.before, if_neg (by simp; omega), if_neg (by simp; omega),
    if_pos (h.adjacent.2 hadj)]

theorem placeSegment_overlap
    (h : Meets base n hi a p new cur)
    (hle : p ≤ a)
    (hin : a < p + blockSize cur)
    (hmore : p + blockSize cur < a + blockSize new)
    (hne : dataAdjChain new.mbuf (BitVec.ofNat 32 (p + blockSize cur - a)) ≠ []) :
    placeSegment new (cur :: buf) =
      storedBefore { cur with
        mbuf := dataMbufMerge cur.mbuf
          (dataAdjChain new.mbuf (BitVec.ofNat 32 (p + blockSize cur - a))) } buf := by
  have hadj : ¬ cur.segEnd = new.segSeq := fun heq => by
    have := h.adjacent.1 heq
    omega
  rw [placeSegment, h.contained, h.before, h.inside, h.overlap hin, if_neg (by simp; omega),
    if_neg (by simp; omega), if_neg hadj, if_pos (decide_eq_true ⟨hle, hin⟩)]
  split
  · rename_i hnil
    exact absurd hnil hne
  · rfl

theorem placeSegment_after
    (h : Meets base n hi a p new cur)
    (hafter : p + blockSize cur < a) :
    placeSegment new (cur :: buf) = (placeSegment new buf).prepend cur := by
  have hpos := h.ok.bytes_pos
  have hsize : blockSize new = (chainBytes new.mbuf).length := rfl
  have hadj : ¬ cur.segEnd = new.segSeq := fun heq => by
    have := h.adjacent.1 heq
    omega
  rw [placeSegment, h.contained, h.before, h.inside, if_neg (by simp; omega),
    if_neg (by simp; omega), if_neg hadj, if_neg (by simp; omega)]

end Meeting

section Placing

variable {n lo a p : Nat} {new cur : TcbBufHdr} {buf : List TcbBufHdr} {ps : List Nat}

/-- The segment is stored, and the blocks hold the old and the new positions. -/
def Stores (stream : Nat → UInt8) (base : U32) (hi lo a : Nat) (new : TcbBufHdr)
    (buf : List TcbBufHdr) (ps : List Nat) : Prop :=
  ∃ buf' ps',
    placeSegment new buf = .stored buf' ∧
    buf' ≠ [] ∧
    Blocks stream base hi lo buf' ps' ∧
    ∀ q, Covered buf ps q ∨ (a ≤ q ∧ q < a + blockSize new) → Covered buf' ps' q

/-- The segment becomes a block in front. -/
theorem stores_before
    (hmeets : Meets base n hi a p new cur)
    (hlo : lo ≤ a)
    (hbytes : chainBytes new.mbuf = slice stream a (blockSize new))
    (h : Blocks stream base hi lo (cur :: buf) (p :: ps))
    (hkeep : NoTailTrim (cur :: buf) (seqAt base a) (seqAt base (a + blockSize new)))
    (hbefore : a < p) :
    Stores stream base hi lo a new (cur :: buf) (p :: ps) := by
  obtain ⟨hp, hall⟩ := h
  have hafter : Blocks stream base hi p (cur :: buf) (p :: ps) := ⟨le_rfl, hall⟩
  have hcut :
      ∀ b ∈ cur :: buf, segLT b.segSeq (seqAt base (a + blockSize new)) = true →
        segLT (seqAt base (a + blockSize new)) b.segEnd = false := by
    intro b hb
    refine hkeep b hb (Or.inl ?_)
    rcases blocks_from hmeets.newFrom hmeets.near hbefore.le hafter b hb with hb' | hb'
    · exact hb'
    · omega
  obtain ⟨buf', ps', hval, hblocks, hcov⟩ :=
    storedBefore_spec new hmeets.curFrom hmeets.near hmeets.newFrom hmeets.seq hmeets.ok hbytes rfl
      hmeets.newTo hafter hcut
  refine ⟨new :: buf', a :: ps', (placeSegment_before hmeets hbefore).trans hval, by simp,
    blocks_mono hlo le_rfl hblocks, fun q hq => hcov q hq ?_⟩
  rcases hq with hq | hq
  · exact hbefore.le.trans (covered_ge hafter hq)
  · exact hq.1

/-- The segment extends the block. -/
theorem stores_adjacent
    (hmeets : Meets base n hi a p new cur)
    (hn : n ≤ lo)
    (hbytes : chainBytes new.mbuf = slice stream a (blockSize new))
    (h : Blocks stream base hi lo (cur :: buf) (p :: ps))
    (hkeep : NoTailTrim (cur :: buf) (seqAt base a) (seqAt base (a + blockSize new)))
    (hadj : p + blockSize cur = a) :
    Stores stream base hi lo a new (cur :: buf) (p :: ps) := by
  have hrest := h.2.2.2.2.2
  have hcut :
      ∀ b ∈ buf, segLT b.segSeq (seqAt base (a + blockSize new)) = true →
        segLT (seqAt base (a + blockSize new)) b.segEnd = false := by
    intro b hb
    refine hkeep b (by simp [hb]) ?_
    rcases blocks_from hmeets.newFrom hmeets.near hadj.ge hrest b hb with hb' | ⟨-, hb'⟩
    · exact Or.inl hb'
    · exact Or.inr ⟨hb', cur, by simp, hmeets.adjacent.2 hadj ▸ hmeets.seq⟩
  have hto := hmeets.newTo
  obtain ⟨buf', ps', hval, hne, hblocks, hcov⟩ :=
    extend_spec hn hmeets.near h hmeets.ok (by rw [hadj]; exact hbytes) (by omega)
      (by rw [hadj]; exact hcut)
  refine ⟨buf', ps', (placeSegment_adjacent hmeets hadj).trans hval, hne, hblocks,
    fun q hq => hcov q ?_⟩
  exact hq.imp_right fun hq => by omega

/-- The segment overlaps the end of the block. -/
theorem stores_overlap
    (hmeets : Meets base n hi a p new cur)
    (hn : n ≤ lo)
    (hbytes : chainBytes new.mbuf = slice stream a (blockSize new))
    (hsize : blockSize new < 2 ^ 16)
    (h : Blocks stream base hi lo (cur :: buf) (p :: ps))
    (hkeep : NoTailTrim (cur :: buf) (seqAt base a) (seqAt base (a + blockSize new)))
    (hover : AdjExact new.mbuf 0 (p + blockSize cur - a))
    (hle : p ≤ a)
    (hin : a < p + blockSize cur)
    (hmore : p + blockSize cur < a + blockSize new) :
    Stores stream base hi lo a new (cur :: buf) (p :: ps) := by
  have hrest := h.2.2.2.2.2
  have hnewSize : blockSize new = (chainBytes new.mbuf).length := rfl
  obtain ⟨hmok, hmbytes⟩ :=
    dataAdjChain_spec (t := p + blockSize cur - a) hmeets.ok (by omega) (by omega) hover
  have hmslice :
      chainBytes (dataAdjChain new.mbuf (BitVec.ofNat 32 (p + blockSize cur - a))) =
        slice stream (p + blockSize cur) (a + blockSize new - (p + blockSize cur)) := by
    rw [hmbytes, hbytes, drop_slice]
    congr 1 <;> omega
  have hend :
      p + blockSize cur + (a + blockSize new - (p + blockSize cur)) = a + blockSize new := by
    omega
  have hcut :
      ∀ b ∈ buf, segLT b.segSeq (seqAt base (a + blockSize new)) = true →
        segLT (seqAt base (a + blockSize new)) b.segEnd = false := by
    intro b hb
    refine hkeep b (by simp [hb]) (Or.inl ?_)
    rcases blocks_from hmeets.newFrom hmeets.near hin.le hrest b hb with hb' | hb'
    · exact hb'
    · omega
  obtain ⟨buf', ps', hval, hne, hblocks, hcov⟩ :=
    extend_spec hn hmeets.near h hmok hmslice (by rw [hend]; exact hmeets.newTo)
      (by rw [hend]; exact hcut)
  refine ⟨buf', ps', (placeSegment_overlap hmeets hle hin hmore hmok.nonempty).trans hval, hne,
    hblocks, fun q hq => hcov q ?_⟩
  exact hq.imp_right fun hq => by omega

/--
The list walk either finds the whole segment stored, or stores it: the blocks stay well
formed and hold the old and the new positions.
-/
theorem placeSegment_spec
    (hn : n ≤ lo)
    (hhi : hi ≤ n + 2 ^ 31)
    (hlo : lo ≤ a)
    (hseq : new.segSeq = seqAt base a)
    (hok : ChainOk new.mbuf)
    (hbytes : chainBytes new.mbuf = slice stream a (blockSize new))
    (hsize : blockSize new < 2 ^ 16)
    (hehi : a + blockSize new < hi)
    (h : Blocks stream base hi lo buf ps)
    (hkeep : NoTailTrim buf (seqAt base a) (seqAt base (a + blockSize new)))
    (hover :
      ∀ b ∈ buf, segLE b.segSeq (seqAt base a) = true →
        segLT (seqAt base a) b.segEnd = true →
        AdjExact new.mbuf 0 (segDIFF b.segEnd (seqAt base a)).toNat) :
    (placeSegment new buf = .contained ∧
      ∀ q, a ≤ q → q < a + blockSize new → Covered buf ps q) ∨
    Stores stream base hi lo a new buf ps := by
  induction buf generalizing lo ps with
  | nil =>
      cases ps with
      | nil =>
          refine Or.inr ⟨[new], [a], rfl, by simp, ⟨hlo, hseq, hok, hbytes, hehi, trivial⟩, ?_⟩
          intro q hq
          rcases hq with hq | hq
          · exact hq.elim
          · exact Or.inl hq
      | cons p ps =>
          exact h.elim
  | cons cur buf ih =>
      cases ps with
      | nil =>
          exact h.elim
      | cons p ps =>
          obtain ⟨hp, hcseq, hcok, hcbytes, hcend, hrest⟩ := id h
          have hmeets : Meets base n hi a p new cur :=
            ⟨hseq, hok, hcseq, hcok, hn.trans hlo, hehi, hn.trans hp, hcend, hhi⟩
          by_cases hcont : p ≤ a ∧ a + blockSize new ≤ p + blockSize cur
          · exact Or.inl ⟨placeSegment_contained hmeets hcont, fun q hqa hqe => Or.inl (by omega)⟩
          rcases Nat.lt_or_ge a p with hbefore | hle
          · exact Or.inr (stores_before hmeets hlo hbytes h hkeep hbefore)
          rcases Nat.lt_trichotomy a (p + blockSize cur) with hin | hadj | hafter
          · have ho := hover cur (by simp)
              (by rw [hcseq, segLE_seqAt base (by omega) (by omega)]; simpa using hle)
              (by rw [segEnd_eq hcseq hcok, segLT_seqAt base (by omega) (by omega)]
                  simpa using hin)
            rw [← hseq, hmeets.overlap hin, BitVec.toNat_ofNat, Nat.mod_eq_of_lt (by omega)] at ho
            exact Or.inr
              (stores_overlap hmeets hn hbytes hsize h hkeep ho hle hin (by omega))
          · exact Or.inr (stores_adjacent hmeets hn hbytes h hkeep hadj.symm)
          · have hwalk := @placeSegment_after _ _ _ _ _ _ _ buf hmeets hafter
            have hkeep' : NoTailTrim buf (seqAt base a) (seqAt base (a + blockSize new)) := by
              intro b hb hstart
              refine hkeep b (by simp [hb]) ?_
              rcases hstart with hs | ⟨hs, prev, hprev, hpe⟩
              · exact Or.inl hs
              · exact Or.inr ⟨hs, prev, by simp [hprev], hpe⟩
            rcases ih (by omega) hafter.le hrest hkeep' (fun b hb => hover b (by simp [hb])) with
              ⟨hval, hcov⟩ | ⟨buf', ps', hval, hne, hblocks, hcov⟩
            · refine Or.inl ⟨by rw [hwalk, hval, PlaceResult.prepend], fun q hqa hqe => ?_⟩
              exact Or.inr (hcov q hqa hqe)
            · refine Or.inr ⟨cur :: buf', p :: ps', by rw [hwalk, hval, PlaceResult.prepend],
                by simp, ⟨hp, hcseq, hcok, hcbytes, hcend, hblocks⟩, fun q hq => ?_⟩
              rcases hq with (hq | hq) | hq
              · exact Or.inl hq
              · exact Or.inr (hcov q (Or.inl hq))
              · exact Or.inr (hcov q (Or.inr hq))

end Placing

/-- The first block that the loop shows is taken whole or not at all. -/
theorem deliverLoop_whole
    {answer : DeliverCb} {i : Nat} {nxt : U32} {b : TcbBufHdr} {buf : List TcbBufHdr}
    (hnxt : nxt = b.segSeq)
    (hwhole : WholeBlocks (fun k => answer (i + k)) (deliverLoop answer i nxt (b :: buf)).calls) :
    answer i (chainBytes b.mbuf) = .close ∨
      answer i (chainBytes b.mbuf) = .consume 0 ∨
      answer i (chainBytes b.mbuf) = .consume (BitVec.ofNat 32 (chainBytes b.mbuf).length) := by
  have hfirst : ∃ n rest, (deliverLoop answer i nxt (b :: buf)).calls =
      { shown := chainBytes b.mbuf, consumed := n } :: rest := by
    rw [deliverLoop, if_pos hnxt]
    split
    · exact ⟨_, _, rfl⟩
    · split <;> exact ⟨_, _, rfl⟩
  obtain ⟨n, rest, hcalls⟩ := hfirst
  exact hwhole 0 _ (by rw [hcalls]; rfl)

/-- So are those that it shows after a block that was taken. -/
theorem deliverLoop_whole_next
    {answer : DeliverCb} {i : Nat} {nxt : U32} {b : TcbBufHdr} {buf : List TcbBufHdr}
    (hnxt : nxt = b.segSeq)
    (htaken : answer i (chainBytes b.mbuf) = .consume b.pktLen)
    (hwhole : WholeBlocks (fun k => answer (i + k)) (deliverLoop answer i nxt (b :: buf)).calls) :
    WholeBlocks (fun k => answer (i + 1 + k))
      (deliverLoop answer (i + 1) (b.segSeq + b.pktLen) buf).calls := by
  intro k call hcall
  have hshown : (deliverLoop answer i nxt (b :: buf)).calls[k + 1]? = some call := by
    subst hnxt
    simp only [deliverLoop, if_true, htaken, List.getElem?_cons_succ]
    exact hcall
  have hanswer := hwhole (k + 1) call hshown
  simp only [Nat.add_comm k 1, ← Nat.add_assoc] at hanswer
  exact hanswer

/-- The loop has taken the `m` bytes from position `n` on, has shown the block there first, and has
left the later positions stored. -/
structure Delivers (stream : Nat → UInt8) (base : U32) (hi n : Nat) (buf : List TcbBufHdr)
    (ps : List Nat) (m : Nat) (ps' : List Nat) (out : DeliverResult) : Prop where
  nxt : out.nxt = seqAt base (n + m)
  blocks : Blocks stream base hi (n + m) out.buf ps'
  bytes : out.calls.flatMap DeliverCall.bytes = slice stream n m
  delivered : out.delivered = BitVec.ofNat 32 m
  covered : ∀ q, n + m ≤ q → Covered buf ps q → Covered out.buf ps' q
  shows : Covered buf ps n →
    ∃ call calls, out.calls = call :: calls ∧ call.shown.head? = some (stream n)

section Delivering

variable {n p m i : Nat} {b : TcbBufHdr} {buf : List TcbBufHdr} {ps ps' : List Nat}
variable {answer : DeliverCb} {out : DeliverResult}

/-- Nothing is taken. -/
theorem delivers_nothing
    (h : Blocks stream base hi n buf ps)
    (hnxt : out.nxt = seqAt base n)
    (hbuf : out.buf = buf)
    (hdelivered : out.delivered = 0)
    (hbytes : out.calls.flatMap DeliverCall.bytes = [])
    (hshows : Covered buf ps n →
      ∃ call calls, out.calls = call :: calls ∧ call.shown.head? = some (stream n)) :
    Delivers stream base hi n buf ps 0 ps out :=
  ⟨hnxt, hbuf ▸ h, hbytes, hdelivered, fun _ _ hq => hbuf ▸ hq, hshows⟩

theorem Blocks.head_shown
    (h : Blocks stream base hi n (b :: buf) (p :: ps)) :
    (chainBytes b.mbuf).head? = some (stream p) := by
  obtain ⟨-, -, hok, hbytes, -, -⟩ := h
  obtain ⟨k, hk⟩ := Nat.exists_eq_succ_of_ne_zero hok.bytes_pos.ne'
  have hsize : blockSize b = k + 1 := hk
  rw [hbytes, hsize, slice_succ]
  rfl

/-- The first block is taken whole. -/
theorem delivers_block
    (hhi : hi ≤ n + 2 ^ 31)
    (h : Blocks stream base hi n (b :: buf) (n :: ps))
    (htaken : answer i (chainBytes b.mbuf) = .consume b.pktLen)
    (hrest : Delivers stream base hi (n + blockSize b) buf ps m ps'
      (deliverLoop answer (i + 1) (b.segSeq + b.pktLen) buf)) :
    Delivers stream base hi n (b :: buf) (n :: ps) (blockSize b + m) ps'
      (deliverLoop answer i (seqAt base n) (b :: buf)) := by
  have hshown := h.head_shown
  obtain ⟨-, hseq, hok, hbytes, hend, -⟩ := h
  obtain ⟨hnxt, hblocks, hcalls, hdelivered, hcovered, -⟩ := hrest
  have hpkt : b.pktLen = BitVec.ofNat 32 (blockSize b) := hok.pktLen
  have htake : (chainBytes b.mbuf).take b.pktLen.toNat = chainBytes b.mbuf := by
    apply List.take_of_length_le
    rw [hpkt, BitVec.toNat_ofNat, Nat.mod_eq_of_lt (by omega)]
    exact le_rfl
  simp only [deliverLoop, hseq.symm, if_true, htaken]
  refine ⟨?_, ?_, ?_, ?_, fun q hq hqc => ?_, fun _ => ⟨_, _, rfl, hshown⟩⟩
  · rw [hnxt, Nat.add_assoc]
  · rwa [Nat.add_assoc] at hblocks
  · rw [List.flatMap_cons, hcalls, DeliverCall.bytes, htake, hbytes, slice_append]
  · rw [hdelivered, hpkt, BitVec.ofNat_add]
  · rcases hqc with hqc | hqc
    · omega
    · exact hcovered q (by omega) hqc

/--
The delivery loop takes whole blocks from the front, shows the block at `RCV.NXT` first, and
leaves the later positions stored.
-/
theorem deliverLoop_spec
    (hhi : hi ≤ n + 2 ^ 31)
    (i : Nat)
    (hwhole : WholeBlocks (fun k => answer (i + k))
      (deliverLoop answer i (seqAt base n) buf).calls)
    (h : Blocks stream base hi n buf ps) :
    ∃ m ps', Delivers stream base hi n buf ps m ps'
      (deliverLoop answer i (seqAt base n) buf) := by
  induction buf generalizing i n ps with
  | nil =>
      cases ps with
      | nil =>
          exact ⟨0, [], delivers_nothing h rfl rfl rfl rfl fun hq => hq.elim⟩
      | cons p ps =>
          exact h.elim
  | cons b buf ih =>
      cases ps with
      | nil =>
          exact h.elim
      | cons p ps =>
          obtain ⟨hp, hseq, hok, hbytes, hend, hrest⟩ := id h
          have hpos : 0 < blockSize b := hok.bytes_pos
          have hpkt : b.pktLen = BitVec.ofNat 32 (blockSize b) := hok.pktLen
          have hmbuf : ({ b with mbuf := dataAdjChain b.mbuf 0 } : TcbBufHdr) = b := by
            rw [dataAdjChain_zero hok]
          have hhead : (seqAt base n = b.segSeq) ↔ p = n := by
            rw [hseq, segEQ_seqAt base (by omega) (by omega)]
            exact eq_comm
          by_cases hpn : p = n
          · subst hpn
            have hnxt := hhead.2 rfl
            rcases deliverLoop_whole hnxt hwhole with ha | ha | ha
            · have hloop : deliverLoop answer i (seqAt base p) (b :: buf) =
                  ⟨b.segSeq, b :: buf, 0, [⟨chainBytes b.mbuf, 0⟩], true⟩ := by
                simpa [deliverLoop, hnxt, ha] using hmbuf
              rw [hloop]
              exact ⟨0, p :: ps, delivers_nothing h hseq rfl rfl rfl
                fun _ => ⟨_, _, rfl, h.head_shown⟩⟩
            · have hne : ¬ (0 : U32) = b.pktLen := by
                rw [hpkt]
                intro h0
                have := congrArg BitVec.toNat h0
                simp at this
                omega
              have hloop : deliverLoop answer i (seqAt base p) (b :: buf) =
                  ⟨b.segSeq, b :: buf, 0, [⟨chainBytes b.mbuf, 0⟩], false⟩ := by
                have hne' : ¬ 0#32 = b.pktLen := hne
                simpa [deliverLoop, hnxt, ha, hne'] using hmbuf
              rw [hloop]
              exact ⟨0, p :: ps, delivers_nothing h hseq rfl rfl rfl
                fun _ => ⟨_, _, rfl, h.head_shown⟩⟩
            · have htaken : answer i (chainBytes b.mbuf) = .consume b.pktLen := by
                rw [ha, hpkt]
                rfl
              have hstep : b.segSeq + b.pktLen = seqAt base (p + blockSize b) := by
                rw [hseq, hpkt, seqAt_add]
              have hwhole' := deliverLoop_whole_next hnxt htaken hwhole
              rw [hstep] at hwhole'
              obtain ⟨m, ps', hdelivers⟩ :=
                ih (n := p + blockSize b) (by omega) (i + 1) hwhole' hrest
              rw [← hstep] at hdelivers
              exact ⟨blockSize b + m, ps', delivers_block hhi h htaken hdelivers⟩
          · have hnot : ¬ seqAt base n = b.segSeq := fun hh => hpn (hhead.1 hh)
            have hloop : deliverLoop answer i (seqAt base n) (b :: buf) =
                ⟨seqAt base n, b :: buf, 0, [], false⟩ := if_neg hnot
            rw [hloop]
            refine ⟨0, p :: ps, delivers_nothing h rfl rfl rfl rfl fun hq => ?_⟩
            have hge := covered_ge
              (show Blocks stream base hi p (b :: buf) (p :: ps) from
                And.intro le_rfl h.2) hq
            omega

end Delivering

end Blocks

section Calls

variable {stream : Nat → UInt8} {base : U32}

/-- The `deliver_data` part, when the walk has left well-formed blocks. -/
theorem deliverData_spec
    {n : Nat} {tcb : Tcb} {buf : List TcbBufHdr} {ps : List Nat} {answer : DeliverCb}
    (hnxt : tcb.rcv.nxt = seqAt base n)
    (hwhole : WholeBlocks answer (deliverData tcb buf answer).calls)
    (hne : buf ≠ [])
    (h : Blocks stream base (n + 2 ^ 31) n buf ps) :
    ∃ m buf' ps',
      (deliverData tcb buf answer).tcb =
        { tcb with rcv := { tcb.rcv with nxt := seqAt base (n + m) }, rcvBuf := buf' } ∧
      (deliverData tcb buf answer).asserted = false ∧
      (deliverData tcb buf answer).calls.flatMap DeliverCall.bytes = slice stream n m ∧
      (deliverData tcb buf answer).delivered = BitVec.ofNat 32 m ∧
      Blocks stream base (n + m + 2 ^ 31) (n + m) buf' ps' ∧
      (∀ q, n + m ≤ q → Covered buf ps q → Covered buf' ps' q) ∧
      (Covered buf ps n →
        ∃ call calls, (deliverData tcb buf answer).calls = call :: calls ∧
          call.shown.head? = some (stream n)) := by
  have hwhole' : WholeBlocks (fun k => answer (0 + k))
      (deliverLoop answer 0 (seqAt base n) buf).calls := by
    simpa only [Nat.zero_add, deliverData, if_neg hne, hnxt] using hwhole
  obtain ⟨m, ps', hn, hblocks, hcalls, hdel, hcov, hshow⟩ :=
    deliverLoop_spec le_rfl 0 hwhole' h
  refine ⟨m, _, ps', ?_, ?_, ?_, ?_, blocks_mono le_rfl (by omega) hblocks, hcov, ?_⟩
  · simp only [deliverData, if_neg hne, hnxt, hn]
  · simp only [deliverData, if_neg hne]
  · simp only [deliverData, if_neg hne, hnxt, hcalls]
  · simp only [deliverData, if_neg hne, hnxt, hdel]
  · simpa only [deliverData, if_neg hne, hnxt] using hshow

/--
What a call leaves behind: `m` bytes were delivered, the rest is in well-formed blocks that
still hold every position that was stored or that the segment brought.
-/
structure HandleSpec (stream : Nat → UInt8) (base : U32) (tcb : Tcb) (ps : List Nat)
    (n start len m : Nat) (buf' : List TcbBufHdr) (ps' : List Nat) (r : HandleResult) :
    Prop where
  tcb_eq :
    r.tcb = { tcb with rcv := { tcb.rcv with nxt := seqAt base (n + m) }, rcvBuf := buf' }
  asserted : r.asserted = false
  calls : r.calls.flatMap DeliverCall.bytes = slice stream n m
  delivered : r.delivered = BitVec.ofNat 32 m
  blocks : Blocks stream base (n + m + 2 ^ 31) (n + m) buf' ps'
  covered :
    ∀ q, n + m ≤ q → Covered tcb.rcvBuf ps q ∨ (start ≤ q ∧ q < start + len) →
      Covered buf' ps' q
  shows :
    n < start + len → Covered tcb.rcvBuf ps n ∨ start ≤ n →
      ∃ call rest, r.calls = call :: rest ∧ call.shown.head? = some (stream n)

/-- Storing the part of the segment from `RCV.NXT` on. -/
theorem storeSegment_spec
    (new : TcbBufHdr)
    {n a : Nat} {tcb : Tcb} {ps : List Nat} {answer : DeliverCb}
    (hnxt : tcb.rcv.nxt = seqAt base n)
    (h : Blocks stream base (n + 2 ^ 31) n tcb.rcvBuf ps)
    (hseq : new.segSeq = seqAt base a)
    (hna : n ≤ a)
    (hok : ChainOk new.mbuf)
    (hbytes : chainBytes new.mbuf = slice stream a (blockSize new))
    (hsize : blockSize new < 2 ^ 16)
    (hhigh : a + blockSize new < n + 2 ^ 31)
    (hkeep : NoTailTrim tcb.rcvBuf (seqAt base a) (seqAt base (a + blockSize new)))
    (hover :
      ∀ b ∈ tcb.rcvBuf, segLE b.segSeq (seqAt base a) = true →
        segLT (seqAt base a) b.segEnd = true →
        AdjExact new.mbuf 0 (segDIFF b.segEnd (seqAt base a)).toNat)
    (hwhole : WholeBlocks answer (storeSegment tcb new answer).calls) :
    ∃ m buf' ps',
      HandleSpec stream base tcb ps n a (blockSize new) m buf' ps'
        (storeSegment tcb new answer) := by
  have hpos : 0 < blockSize new := hok.bytes_pos
  rcases placeSegment_spec le_rfl le_rfl hna hseq hok hbytes hsize hhigh h hkeep hover with
    ⟨hval, hcov⟩ | ⟨buf', ps', hval, hne, hblocks, hcov⟩
  · have hstore : storeSegment tcb new answer = deliverData tcb tcb.rcvBuf answer := by
      rw [storeSegment, hval]
    have hne : tcb.rcvBuf ≠ [] := by
      intro hnil
      rw [hnil] at hval
      simp [placeSegment] at hval
    rw [hstore] at hwhole
    obtain ⟨m, buf', ps', htcb, hass, hcalls, hdel, hblocks, hcov', hshow⟩ :=
      deliverData_spec hnxt hwhole hne h
    refine ⟨m, buf', ps', ?_⟩
    rw [hstore]
    refine ⟨htcb, hass, hcalls, hdel, hblocks, ?_, ?_⟩
    · intro q hq hqc
      rcases hqc with hqc | hqc
      · exact hcov' q hq hqc
      · exact hcov' q hq (hcov q hqc.1 hqc.2)
    · intro hn hc
      rcases hc with hc | hc
      · exact hshow hc
      · exact hshow (hcov n hc hn)
  · have hstore : storeSegment tcb new answer = deliverData tcb buf' answer := by
      rw [storeSegment, hval]
    rw [hstore] at hwhole
    obtain ⟨m, buf'', ps'', htcb, hass, hcalls, hdel, hblocks', hcov', hshow⟩ :=
      deliverData_spec hnxt hwhole hne hblocks
    refine ⟨m, buf'', ps'', ?_⟩
    rw [hstore]
    refine ⟨htcb, hass, hcalls, hdel, hblocks', ?_, ?_⟩
    · intro q hq hqc
      exact hcov' q hq (hcov q hqc)
    · intro hn hc
      rcases hc with hc | hc
      · exact hshow (hcov n (Or.inl hc))
      · exact hshow (hcov n (Or.inr ⟨hc, hn⟩))

/-- A segment of `len` bytes from position `start` arrives, within half of the numbers. -/
structure Arrives (stream : Nat → UInt8) (base : U32) (n start len : Nat) (tcb : Tcb)
    (ps : List Nat) (mbuf : Chain) : Prop where
  nxt : tcb.rcv.nxt = seqAt base n
  blocks : Blocks stream base (n + 2 ^ 31) n tcb.rcvBuf ps
  ok : ChainOk mbuf
  length : (chainBytes mbuf).length = len
  bytes : chainBytes mbuf = slice stream start len
  size : len < 2 ^ 16
  low : n ≤ start + 2 ^ 31
  high : start + len < n + 2 ^ 31

section Arriving

variable {n start len : Nat} {tcb : Tcb} {ps : List Nat} {mbuf : Chain} {answer : DeliverCb}

theorem Arrives.old
    (h : Arrives stream base n start len tcb ps mbuf) :
    segLE (seqAt base start + BitVec.ofNat 32 len) tcb.rcv.nxt = decide (start + len ≤ n) := by
  obtain ⟨hnxt, -, -, -, -, hsize, hlow, hhigh⟩ := h
  rw [seqAt_add, hnxt, segLE_seqAt base (by omega) (by omega)]

theorem Arrives.before
    (h : Arrives stream base n start len tcb ps mbuf) :
    segLT (seqAt base start) tcb.rcv.nxt = decide (start < n) := by
  obtain ⟨hnxt, -, -, -, -, hsize, hlow, hhigh⟩ := h
  rw [hnxt, segLT_seqAt base (by omega) (by omega)]

theorem Arrives.after
    (h : Arrives stream base n start len tcb ps mbuf) :
    segGT (seqAt base start + BitVec.ofNat 32 len) tcb.rcv.nxt = decide (n < start + len) := by
  have hpos : 0 < len := h.length ▸ h.ok.bytes_pos
  obtain ⟨hnxt, -, -, -, -, hsize, hlow, hhigh⟩ := h
  rw [segGT, seqAt_add, hnxt, segLT_seqAt base (by omega) (by omega)]

/-- Nothing of the segment is new. -/
theorem tcpDataHandle_old
    (h : Arrives stream base n start len tcb ps mbuf)
    (hold : start + len ≤ n) :
    HandleSpec stream base tcb ps n start len 0 tcb.rcvBuf ps
      (tcpDataHandle tcb mbuf (seqAt base start) (BitVec.ofNat 32 len) answer) := by
  have hpos : 0 < len := h.length ▸ h.ok.bytes_pos
  simp only [tcpDataHandle, h.old, hold, decide_true, if_true]
  refine ⟨?_, rfl, rfl, rfl, h.blocks, fun q hq hqc => ?_, fun hn => ?_⟩
  · rw [Nat.add_zero, ← h.nxt]
  · rcases hqc with hqc | hqc
    · exact hqc
    · omega
  · omega

/-- The first part of the segment was received before. -/
theorem tcpDataHandle_front
    (h : Arrives stream base n start len tcb ps mbuf)
    (hkeep : KeepsLabels tcb mbuf (seqAt base start) (BitVec.ofNat 32 len) answer)
    (hnew : n < start + len)
    (hfront : start < n) :
    ∃ m buf' ps',
      HandleSpec stream base tcb ps n start len m buf' ps'
        (tcpDataHandle tcb mbuf (seqAt base start) (BitVec.ofNat 32 len) answer) := by
  obtain ⟨hnxt, hblocks, hok, hlen, hbytes, hsize, hlow, hhigh⟩ := id h
  have hplace : placeSeq tcb (seqAt base start) = seqAt base n := by
    rw [placeSeq, h.before, hnxt]
    simp [hfront]
  have hdiff : segDIFF (seqAt base n) (seqAt base start) = BitVec.ofNat 32 (n - start) := by
    rw [segDIFF_seqAt base hfront.le]
  have hdiffNat : (BitVec.ofNat 32 (n - start)).toNat = n - start := by
    rw [BitVec.toNat_ofNat, Nat.mod_eq_of_lt (by omega)]
  have hexact : AdjExact mbuf 0 (n - start) := by
    have hx := hkeep.frontTrim (by rw [h.before]; simpa using hfront)
    rwa [hnxt, hdiff, hdiffNat] at hx
  obtain ⟨hmok, hmbytes⟩ := dataAdjChain_spec hok (by omega) (by omega) hexact
  have hmslice : chainBytes (dataAdjChain mbuf (BitVec.ofNat 32 (n - start))) =
      slice stream n (start + len - n) := by
    rw [hmbytes, hbytes, drop_slice]
    congr 1 <;> omega
  have hmsize :
      blockSize ⟨dataAdjChain mbuf (BitVec.ofNat 32 (n - start)), seqAt base n⟩ =
        start + len - n := by
    rw [blockSize, hmslice, length_slice]
  have hrun : tcpDataHandle tcb mbuf (seqAt base start) (BitVec.ofNat 32 len) answer =
      storeSegment tcb
        ⟨dataAdjChain mbuf (BitVec.ofNat 32 (n - start)), seqAt base n⟩ answer := by
    have hgap : ¬ decide (start + len ≤ n) = true := by
      simpa using hnew
    have hin : (decide (start < n) && decide (n < start + len)) = true := by
      simp [hfront, hnew]
    rw [tcpDataHandle, h.old, if_neg hgap, h.before, h.after, if_pos hin, hnxt, hdiff]
    split
    · rename_i hnil
      exact absurd hnil hmok.nonempty
    · rfl
  have hover :
      ∀ b ∈ tcb.rcvBuf, segLE b.segSeq (seqAt base n) = true →
        segLT (seqAt base n) b.segEnd = true →
        AdjExact (dataAdjChain mbuf (BitVec.ofNat 32 (n - start))) 0
          (segDIFF b.segEnd (seqAt base n)).toNat := by
    intro b hb hb1 hb2
    have hx := hkeep.overlapTrim b hb (by rwa [hplace]) (by rwa [hplace])
    rw [hplace, hdiff, hdiffNat] at hx
    obtain ⟨q, hnq, hqhi, hbend⟩ := blocks_end hblocks b hb
    have hd1 : (segDIFF b.segEnd (seqAt base n)).toNat = q - n := by
      rw [hbend, segDIFF_seqAt base (by omega), BitVec.toNat_ofNat,
        Nat.mod_eq_of_lt (by omega)]
    have hd2 : (segDIFF b.segEnd (seqAt base start)).toNat = n - start + (q - n) := by
      rw [hbend, segDIFF_seqAt base (by omega), BitVec.toNat_ofNat,
        Nat.mod_eq_of_lt (by omega)]
      omega
    rw [hd1]
    rw [hd2] at hx
    exact adjExact_dataAdjChain hok (by omega) (by omega) hexact hx
  have htail :
      NoTailTrim tcb.rcvBuf (seqAt base n)
        (seqAt base (n + blockSize
          ⟨dataAdjChain mbuf (BitVec.ofNat 32 (n - start)), seqAt base n⟩)) := by
    have hk := hkeep.noTailTrim
    rw [hplace, seqAt_add] at hk
    rwa [hmsize, show n + (start + len - n) = start + len by omega]
  obtain ⟨m, buf', ps', hspec⟩ :=
    storeSegment_spec
      ⟨dataAdjChain mbuf (BitVec.ofNat 32 (n - start)), seqAt base n⟩
      hnxt hblocks rfl le_rfl hmok (by rw [hmsize]; exact hmslice) (by omega) (by omega) htail
      hover (hrun ▸ hkeep.wholeBlocks)
  refine ⟨m, buf', ps', ?_⟩
  rw [hrun]
  refine ⟨hspec.tcb_eq, hspec.asserted, hspec.calls, hspec.delivered, hspec.blocks, ?_, ?_⟩
  · intro q hq hqc
    refine hspec.covered q hq ?_
    rcases hqc with hqc | hqc
    · exact Or.inl hqc
    · exact Or.inr (by omega)
  · intro hn hc
    exact hspec.shows (by omega) (Or.inr le_rfl)

/-- The whole segment is at or after `RCV.NXT`. -/
theorem tcpDataHandle_whole
    (h : Arrives stream base n start len tcb ps mbuf)
    (hkeep : KeepsLabels tcb mbuf (seqAt base start) (BitVec.ofNat 32 len) answer)
    (hnew : n < start + len)
    (hfront : ¬ start < n) :
    ∃ m buf' ps',
      HandleSpec stream base tcb ps n start len m buf' ps'
        (tcpDataHandle tcb mbuf (seqAt base start) (BitVec.ofNat 32 len) answer) := by
  obtain ⟨hnxt, hblocks, hok, hlen, hbytes, hsize, hlow, hhigh⟩ := id h
  have hplace : placeSeq tcb (seqAt base start) = seqAt base start := by
    rw [placeSeq, h.before]
    simp [hfront]
  have hbsize : blockSize ⟨mbuf, seqAt base start⟩ = len := hlen
  have hrun : tcpDataHandle tcb mbuf (seqAt base start) (BitVec.ofNat 32 len) answer =
      storeSegment tcb ⟨mbuf, seqAt base start⟩ answer := by
    simp [tcpDataHandle, h.old, h.before, Nat.not_le.2 hnew, hfront]
  have hk := hkeep.noTailTrim
  rw [hplace, seqAt_add] at hk
  have hover :
      ∀ b ∈ tcb.rcvBuf, segLE b.segSeq (seqAt base start) = true →
        segLT (seqAt base start) b.segEnd = true →
        AdjExact mbuf 0 (segDIFF b.segEnd (seqAt base start)).toNat := by
    intro b hb hb1 hb2
    have hx := hkeep.overlapTrim b hb (by rwa [hplace]) (by rwa [hplace])
    rw [hplace] at hx
    simpa [segDIFF] using hx
  obtain ⟨m, buf', ps', hspec⟩ :=
    storeSegment_spec ⟨mbuf, seqAt base start⟩ hnxt hblocks rfl (by omega) hok
      (by rw [hbsize]; exact hbytes) (by omega) (by omega) (by rwa [hbsize]) hover
      (hrun ▸ hkeep.wholeBlocks)
  refine ⟨m, buf', ps', ?_⟩
  rw [hrun]
  rw [hbsize] at hspec
  exact hspec

end Arriving

/-- A call with a segment of the stream that keeps the labels. -/
theorem tcpDataHandle_spec
    {n start len : Nat} {tcb : Tcb} {ps : List Nat} {mbuf : Chain} {answer : DeliverCb}
    (hnxt : tcb.rcv.nxt = seqAt base n)
    (h : Blocks stream base (n + 2 ^ 31) n tcb.rcvBuf ps)
    (hok : ChainOk mbuf)
    (hlen : (chainBytes mbuf).length = len)
    (hbytes : chainBytes mbuf = slice stream start len)
    (hsize : len < 2 ^ 16)
    (hlow : n ≤ start + 2 ^ 31)
    (hhigh : start + len < n + 2 ^ 31)
    (hkeep : KeepsLabels tcb mbuf (seqAt base start) (BitVec.ofNat 32 len) answer) :
    ∃ m buf' ps',
      HandleSpec stream base tcb ps n start len m buf' ps'
        (tcpDataHandle tcb mbuf (seqAt base start) (BitVec.ofNat 32 len) answer) := by
  have harrives : Arrives stream base n start len tcb ps mbuf :=
    ⟨hnxt, h, hok, hlen, hbytes, hsize, hlow, hhigh⟩
  rcases Nat.lt_or_ge n (start + len) with hnew | hold
  · by_cases hfront : start < n
    · exact tcpDataHandle_front harrives hkeep hnew hfront
    · exact tcpDataHandle_whole harrives hkeep hnew hfront
  · exact ⟨0, tcb.rcvBuf, ps, tcpDataHandle_old harrives hold⟩

end Calls

section Runs

variable {stream : Nat → UInt8} {base : U32}

/-- A call that the run is about: a segment of the stream, and no label goes stale. -/
def RcvOk (stream : Nat → UInt8) (base : U32) (s : RcvState) (i : RcvInput) : Prop :=
  CutFrom stream s i ∧
    KeepsLabels s.tcb i.mbuf (seqAt base i.start) (BitVec.ofNat 32 i.len) i.answer

/-- Some segment of the run brought the byte at position `q`. -/
def Received (s : RcvState) (q : Nat) : Prop :=
  ∃ seg ∈ s.received, seg.1 ≤ q ∧ q < seg.1 + seg.2

/-- The invariant of the runs. -/
structure RcvInv (stream : Nat → UInt8) (base : U32) (s : RcvState) (ps : List Nat) : Prop where
  asserted : s.asserted = false
  consumed : s.consumed = slice stream 0 s.consumed.length
  nxt : s.tcb.rcv.nxt = seqAt base s.consumed.length
  blocks :
    Blocks stream base (s.consumed.length + 2 ^ 31) s.consumed.length s.tcb.rcvBuf ps
  stored : ∀ q, s.consumed.length ≤ q → Received s q → Covered s.tcb.rcvBuf ps q

theorem rcvInit_inv
    {tcb : Tcb}
    (hempty : tcb.rcvBuf = []) :
    RcvInv stream tcb.rcv.nxt (rcvInit tcb) [] := by
  refine ⟨rfl, rfl, by simp [rcvInit], ?_, ?_⟩
  · simp only [rcvInit, hempty]
    trivial
  · rintro q - ⟨seg, hseg, -⟩
    simp [rcvInit] at hseg

/-- What a call of the run does. -/
theorem rcvCall_spec
    {s : RcvState} {i : RcvInput} {ps : List Nat}
    (hinv : RcvInv stream base s ps)
    (hok : RcvOk stream base s i) :
    ∃ m buf' ps',
      HandleSpec stream base s.tcb ps s.consumed.length i.start i.len m buf' ps'
        (rcvCall base s i) :=
  tcpDataHandle_spec hinv.nxt hinv.blocks hok.1.chain rfl hok.1.bytes hok.1.size hok.1.low
    hok.1.high hok.2

/-- One call that keeps the labels preserves the invariant. -/
theorem rcvStep_inv
    {s : RcvState} {i : RcvInput} {ps : List Nat}
    (hinv : RcvInv stream base s ps)
    (hok : RcvOk stream base s i) :
    ∃ ps', RcvInv stream base (rcvStep base s i) ps' := by
  obtain ⟨m, buf', ps', hspec⟩ := rcvCall_spec hinv hok
  have hcons : (rcvStep base s i).consumed = slice stream 0 (s.consumed.length + m) := by
    have happ := slice_append stream 0 s.consumed.length m
    rw [Nat.zero_add] at happ
    simp only [rcvStep]
    rw [hspec.calls, ← happ, ← hinv.consumed]
  have hlen : (rcvStep base s i).consumed.length = s.consumed.length + m := by
    rw [hcons, length_slice]
  have htcb : (rcvStep base s i).tcb = (rcvCall base s i).tcb := rfl
  refine ⟨ps', ?_, ?_, ?_, ?_, ?_⟩
  · simp only [rcvStep, hinv.asserted, hspec.asserted, Bool.or_self]
  · rw [hlen]
    exact hcons
  · rw [hlen, htcb, hspec.tcb_eq]
  · rw [hlen, htcb, hspec.tcb_eq]
    exact hspec.blocks
  · rw [hlen, htcb, hspec.tcb_eq]
    rintro q hq ⟨seg, hseg, hlo, hhi⟩
    refine hspec.covered q hq ?_
    simp only [rcvStep, List.mem_append, List.mem_singleton] at hseg
    rcases hseg with hseg | rfl
    · exact Or.inl (hinv.stored q (by omega) ⟨seg, hseg, hlo, hhi⟩)
    · exact Or.inr ⟨hlo, hhi⟩

/-- The invariant holds in every state of a run that keeps the labels. -/
theorem rcvRun_inv
    {tcb : Tcb} {is : List RcvInput}
    (hempty : tcb.rcvBuf = [])
    (hrun : Guarded (rcvStep tcb.rcv.nxt) (RcvOk stream tcb.rcv.nxt) (rcvInit tcb) is) :
    ∃ ps, RcvInv stream tcb.rcv.nxt (run (rcvStep tcb.rcv.nxt) (rcvInit tcb) is) ps :=
  run_invariant (fun s => ∃ ps, RcvInv stream tcb.rcv.nxt s ps)
    (fun _ _ ⟨_, hinv⟩ hok => rcvStep_inv hinv hok) ⟨[], rcvInit_inv hempty⟩ hrun

end Runs

section ConcreteRuns

/-- A control block of a fresh connection that expects sequence number `0`. -/
def freshTcb : Tcb :=
  { state := .established
    snd := { una := 1, nxt := 1, wnd := 65535, wl1 := 0, wl2 := 0, iss := 0 }
    rcv := { nxt := 0, wnd := 65535, up := 0, irs := 0xffffffff }
    retrans := { dataMbufs := [], lastMbuf := none, totalSize := 0 }
    rcvBuf := []
    active := true
    onSlowList := false
    onRtoList := false
    retransCnt := 0
    finRcvd := false
    rstRcvd := false
    rcvFinSeq := 0
    inHtable := true }

/-- The stream whose byte at position `n` is `n`, modulo `256`. -/
def countingStream (n : Nat) : UInt8 :=
  UInt8.ofNat n

/-- The application that consumes what it is shown. -/
def consumeAll : DeliverCb :=
  fun _ bytes => .consume (BitVec.ofNat 32 bytes.length)

/-- The application that consumes at most two bytes of what it is shown. -/
def consumeTwo : DeliverCb :=
  fun _ bytes => .consume (BitVec.ofNat 32 (min 2 bytes.length))

/-- `n` bytes of the counting stream from position `a` on, in one mbuf. -/
def countingSegment (a n : Nat) (answer : DeliverCb) : RcvInput :=
  { start := a
    mbuf := [{ id := a, data := slice countingStream a n, pktLen := BitVec.ofNat 32 n,
               nbSegs := 1 }]
    answer := answer }

theorem answersInBounds_consumeAll :
    AnswersInBounds consumeAll := by
  intro k bytes n h
  simp only [consumeAll, DeliverAnswer.consume.injEq] at h
  rw [← h, BitVec.toNat_ofNat]
  exact Nat.mod_le _ _

theorem answersInBounds_consumeTwo :
    AnswersInBounds consumeTwo := by
  intro k bytes n h
  simp only [consumeTwo, DeliverAnswer.consume.injEq] at h
  rw [← h, BitVec.toNat_ofNat]
  exact (Nat.mod_le _ _).trans (Nat.min_le_right _ _)

theorem wholeBlocks_consumeAll
    (calls : List DeliverCall) :
    WholeBlocks consumeAll calls :=
  fun _ _ _ => Or.inr (Or.inr rfl)

theorem countingSegment_cutFrom
    {s : RcvState} {a n : Nat} {answer : DeliverCb}
    (hpos : 0 < n)
    (hsize : n < 2 ^ 16)
    (hlow : s.consumed.length ≤ a + 2 ^ 31)
    (hhigh : a + n < s.consumed.length + 2 ^ 31) :
    CutFrom countingStream s (countingSegment a n answer) := by
  have hlen : (countingSegment a n answer).len = n := by
    simp [RcvInput.len, countingSegment]
  refine ⟨⟨by simp [countingSegment], ?_, ?_, ?_⟩, ?_, by omega, hlow, ?_⟩
  · simp [countingSegment]
    omega
  · simp [countingSegment]
    omega
  · simp [countingSegment, chainPktLen]
  · rw [hlen]
    simp [countingSegment]
  · rw [hlen]
    exact hhigh

/-- Segments cut from the stream, and an application that does not take what it is not shown. -/
def RcvDomain (stream : Nat → UInt8) (s : RcvState) (i : RcvInput) : Prop :=
  CutFrom stream s i ∧ AnswersInBounds i.answer

/-- Two segments that arrive in the wrong order, and a third that overlaps what was read. -/
def swappedRun : List RcvInput :=
  [countingSegment 2 2 consumeAll, countingSegment 0 2 consumeAll,
   countingSegment 3 3 consumeAll]

theorem swappedRun_ok :
    Guarded (rcvStep freshTcb.rcv.nxt) (RcvOk countingStream freshTcb.rcv.nxt)
      (rcvInit freshTcb) swappedRun := by
  refine ⟨⟨countingSegment_cutFrom (by decide) (by decide) (by decide) (by decide), ?_⟩,
    ⟨countingSegment_cutFrom (by decide) (by decide) (by decide) (by decide), ?_⟩,
    ⟨countingSegment_cutFrom (by decide) (by decide) (by decide) (by decide), ?_⟩, trivial⟩
  all_goals
    exact ⟨by unfold NoTailTrim; decide, wholeBlocks_consumeAll _, by decide, by decide⟩

/-- Three segments that overlap from the front leave two stale labels; then both are read. -/
def staleLabelRun : List RcvInput :=
  [countingSegment 6 3 consumeAll, countingSegment 3 4 consumeAll,
   countingSegment 1 3 consumeAll, countingSegment 4 2 consumeAll,
   countingSegment 0 1 consumeAll]

end ConcreteRuns

section Results

/--
Receive integrity: the bytes consumed over the run are the first bytes of the stream, and
`RCV.NXT` has advanced by their number.
-/
structure DeliversPrefix (stream : Nat → UInt8) (base : U32) (s : RcvState) : Prop where
  asserted : s.asserted = false
  consumed : s.consumed = slice stream 0 s.consumed.length
  nxt : s.tcb.rcv.nxt = seqAt base s.consumed.length

/-- In a run in which no stored block keeps a stale label, the application gets the stream. -/
theorem tcpDataHandle_delivers_prefix
    (stream : Nat → UInt8)
    (tcb : Tcb)
    (hempty : tcb.rcvBuf = [])
    (is : List RcvInput)
    (hrun : Guarded (rcvStep tcb.rcv.nxt) (RcvOk stream tcb.rcv.nxt) (rcvInit tcb) is) :
    DeliversPrefix stream tcb.rcv.nxt (run (rcvStep tcb.rcv.nxt) (rcvInit tcb) is) := by
  obtain ⟨ps, hinv⟩ := rcvRun_inv hempty hrun
  exact ⟨hinv.asserted, hinv.consumed, hinv.nxt⟩

theorem tcpDataHandle_delivers_prefix_swapped :
    DeliversPrefix countingStream freshTcb.rcv.nxt
      (run (rcvStep freshTcb.rcv.nxt) (rcvInit freshTcb) swappedRun) :=
  tcpDataHandle_delivers_prefix countingStream freshTcb rfl swappedRun swappedRun_ok

/-- The application gets `0, 1, 2, 3, 4, 5, 7, 8`: byte `6` is missing. -/
theorem tcpDataHandle_loses_byte :
    Guarded (rcvStep freshTcb.rcv.nxt) (RcvDomain countingStream) (rcvInit freshTcb)
      staleLabelRun ∧
    ¬ DeliversPrefix countingStream freshTcb.rcv.nxt
      (run (rcvStep freshTcb.rcv.nxt) (rcvInit freshTcb) staleLabelRun) := by
  constructor
  · refine ⟨⟨countingSegment_cutFrom (by decide) (by decide) (by decide) (by decide), ?_⟩,
      ⟨countingSegment_cutFrom (by decide) (by decide) (by decide) (by decide), ?_⟩,
      ⟨countingSegment_cutFrom (by decide) (by decide) (by decide) (by decide), ?_⟩,
      ⟨countingSegment_cutFrom (by decide) (by decide) (by decide) (by decide), ?_⟩,
      ⟨countingSegment_cutFrom (by decide) (by decide) (by decide) (by decide), ?_⟩, trivial⟩
    all_goals exact answersInBounds_consumeAll
  · intro h
    exact absurd h.consumed (by decide)

/--
The receive queue: sorted disjoint blocks, each labelled with the position of its first byte
and carrying its length.  When the byte at `RCV.NXT` was received, the first block is
labelled with it, and the next call that reaches the delivery loop shows it.
-/
structure QueueProgress (stream : Nat → UInt8) (base : U32) (s : RcvState) : Prop where
  blocks :
    ∃ ps, Blocks stream base (s.consumed.length + 2 ^ 31) s.consumed.length s.tcb.rcvBuf ps
  head :
    Received s s.consumed.length →
      ∃ b rest, s.tcb.rcvBuf = b :: rest ∧ b.segSeq = s.tcb.rcv.nxt
  shows :
    ∀ i, RcvOk stream base s i → Received s s.consumed.length →
      segLE (seqAt base i.start + BitVec.ofNat 32 i.len) s.tcb.rcv.nxt = false →
      ∃ call rest, (rcvStep base s i).shown = call :: rest ∧
        call.shown.head? = some (stream s.consumed.length)

/-- In a run in which no stored block keeps a stale label, no received byte is stuck. -/
theorem tcpDataHandle_queue_progress
    (stream : Nat → UInt8)
    (tcb : Tcb)
    (hempty : tcb.rcvBuf = [])
    (is : List RcvInput)
    (hrun : Guarded (rcvStep tcb.rcv.nxt) (RcvOk stream tcb.rcv.nxt) (rcvInit tcb) is) :
    QueueProgress stream tcb.rcv.nxt (run (rcvStep tcb.rcv.nxt) (rcvInit tcb) is) := by
  obtain ⟨ps, hinv⟩ := rcvRun_inv hempty hrun
  refine ⟨⟨ps, hinv.blocks⟩, ?_, ?_⟩
  · intro hrec
    rw [hinv.nxt]
    exact head_of_covered hinv.blocks (hinv.stored _ le_rfl hrec)
  · intro i hok hrec hreach
    obtain ⟨m, buf', ps', hspec⟩ := rcvCall_spec hinv hok
    have hlow := hok.1.low
    have hhigh := hok.1.high
    rw [hinv.nxt, seqAt_add, segLE_seqAt _ (by omega) (by omega)] at hreach
    exact hspec.shows (by simpa using hreach) (Or.inl (hinv.stored _ le_rfl hrec))

theorem tcpDataHandle_queue_progress_swapped :
    QueueProgress countingStream freshTcb.rcv.nxt
      (run (rcvStep freshTcb.rcv.nxt) (rcvInit freshTcb) swappedRun) :=
  tcpDataHandle_queue_progress countingStream freshTcb rfl swappedRun swappedRun_ok

/-- The application takes two of four bytes: the block stays labelled with byte `0`. -/
theorem tcpDataHandle_partial_consume_sticks :
    Guarded (rcvStep freshTcb.rcv.nxt) (RcvDomain countingStream) (rcvInit freshTcb)
      [countingSegment 0 4 consumeTwo] ∧
    ¬ QueueProgress countingStream freshTcb.rcv.nxt
      (run (rcvStep freshTcb.rcv.nxt) (rcvInit freshTcb) [countingSegment 0 4 consumeTwo]) := by
  constructor
  · exact ⟨⟨countingSegment_cutFrom (by decide) (by decide) (by decide) (by decide),
      answersInBounds_consumeTwo⟩, trivial⟩
  · intro h
    obtain ⟨b, rest, hbuf, hseq⟩ := h.head ⟨(0, 4), by decide, by decide, by decide⟩
    have hlabel :
        (run (rcvStep freshTcb.rcv.nxt) (rcvInit freshTcb)
          [countingSegment 0 4 consumeTwo]).tcb.rcvBuf.head?.map TcbBufHdr.segSeq = some 0 := by
      decide
    rw [hbuf] at hlabel
    simp only [List.head?_cons, Option.map_some, Option.some.injEq] at hlabel
    rw [hlabel] at hseq
    exact absurd hseq (by decide)

end Results

end ReceiveReassembly
end Warp17
