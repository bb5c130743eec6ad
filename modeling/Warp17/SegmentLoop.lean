import Warp17.ConnectionRuns
import Warp17.RetransmissionQueue

/-!
# The segments of one send

`tcp_data_send_segments` cuts segments from a chain, from an offset in its first mbuf on.  What
it should do is said here about the packets that it hands down and about its result.

The packets are always adjacent slices of the chain, no longer than the MTU, and the walk over
the mbufs stays in the chain.  But the loop condition `sent_segs <= TCB_SEGS_PER_SEND` lets one
segment too many out, and the inner loop counts `seg_data_len` down before it is added to
`sent_data`, so that only the bytes in the last mbuf of a segment are counted.

**Results**
- `segments_consecutive`: the part that always holds.
- `sendSegmentsLoop_sent`: what the loop returns.
- `segments_ok_iff`: the segments and the result are right just if nothing is sent, or one
  segment that ends in the first mbuf.
-/

namespace Warp17
namespace RetransmissionQueue

open SequenceComparison MbufChains ControlBlock SendQueue ConnectionRuns

/-- The cursors after segments of the given sizes, as `advanceSegs` leaves them. -/
def segCursors : Chain → Nat → List Nat → List (Chain × Nat × Nat)
  | _, _, [] => []
  | segs, off, n :: ns =>
      let next := advanceSegs segs off n
      next :: segCursors next.1 next.2.1 ns

/-- The packets carry the bytes one after the other, at their sequence numbers. -/
def Consecutive : U32 → List UInt8 → List TxPkt → Prop
  | _, _, [] => True
  | seq, bytes, pkt :: pkts =>
      pkt.seq = seq ∧ pkt.data.length ≤ bytes.length ∧ pkt.data = bytes.take pkt.data.length ∧
        Consecutive (seq + BitVec.ofNat 32 pkt.data.length) (bytes.drop pkt.data.length) pkts

/-- The lengths of the payloads. -/
def payloads (pkts : List TxPkt) : List Nat :=
  pkts.map fun pkt => pkt.data.length

/-- What always holds of the packets of a send. -/
structure SegmentsSound (mtu : Nat) (segs : Chain) (off : Nat) (sseq : U32)
    (pkts : List TxPkt) : Prop where
  consecutive : Consecutive sseq ((chainBytes segs).drop off) pkts
  small : ∀ pkt ∈ pkts, pkt.data.length ≤ mtu
  cursors : ∀ next ∈ segCursors segs off (payloads pkts), next.1 ≠ []

/-- And what should hold: not too many packets, and their bytes counted in the result. -/
structure SegmentsOk (mtu : Nat) (segs : Chain) (off : Nat) (sseq : U32) (pkts : List TxPkt)
    (sentData : U32) : Prop extends SegmentsSound mtu segs off sseq pkts where
  count : pkts.length ≤ tcbSegsPerSend
  returned : sentData = BitVec.ofNat 32 (payloads pkts).sum

/-- Nothing is sent, or one segment that ends in the first mbuf. -/
def SegmentsFit (env : TsmEnv) (segs : Chain) (dataLen off : Nat) : Prop :=
  dataLen = 0 ∨ env.cfg.mtu = 0 ∨ env.sendOk 0 = false ∨
    (dataLen ≤ env.cfg.mtu ∨ env.sendOk 1 = false) ∧
      off + min dataLen env.cfg.mtu ≤ headLen segs

section Cursor

variable {segs : Chain} {off len : Nat}

/-- The walk over the bytes of a segment ends in an mbuf of the chain. -/
theorem advanceSegs_ne_nil
    (hsegs : segs ≠ [])
    (hfits : off + len ≤ (chainBytes segs).length) :
    (advanceSegs segs off len).1 ≠ [] := by
  induction segs generalizing off len with
  | nil =>
      exact absurd rfl hsegs
  | cons m rest ih =>
      rw [chainBytes_cons, List.length_append] at hfits
      by_cases h : m.data.length < off + len
      · rw [advanceSegs, if_pos h]
        by_cases hrest : rest = []
        · -- the bytes left are not in the chain
          rw [hrest, chainBytes_nil, List.length_nil] at hfits
          omega
        · refine ih hrest ?_
          omega
      · rw [advanceSegs, if_neg h]
        exact List.cons_ne_nil m rest

theorem advanceSegs_left_le
    (segs : Chain) (off len : Nat) :
    (advanceSegs segs off len).2.2 ≤ len := by
  induction segs generalizing off len with
  | nil =>
      exact le_rfl
  | cons m rest ih =>
      by_cases h : m.data.length < off + len
      · rw [advanceSegs, if_pos h]
        exact (ih 0 _).trans (Nat.sub_le _ _)
      · rw [advanceSegs, if_neg h]

/-- Nothing is taken off the length of a segment that ends in its first mbuf, and only then. -/
theorem advanceSegs_left_eq_iff
    (hoff : off < headLen segs) :
    (advanceSegs segs off len).2.2 = len ↔ off + len ≤ headLen segs := by
  cases segs with
  | nil =>
      exact absurd hoff (Nat.not_lt_zero off)
  | cons m rest =>
      rw [headLen] at hoff ⊢
      by_cases h : m.data.length < off + len
      · have hless := advanceSegs_left_le rest 0 (len - (m.data.length - off))
        rw [advanceSegs, if_pos h]
        constructor
        · intro heq
          omega
        · intro hfits
          omega
      · rw [advanceSegs, if_neg h]
        exact iff_of_true rfl (by omega)

theorem segCursors_ne_nil
    {ns : List Nat}
    (hsegs : segs ≠ [])
    (hoff : off ≤ headLen segs)
    (hfits : off + ns.sum ≤ (chainBytes segs).length) :
    ∀ next ∈ segCursors segs off ns, next.1 ≠ [] := by
  induction ns generalizing segs off with
  | nil =>
      intro next hnext
      cases hnext
  | cons n ns ih =>
      rw [List.sum_cons] at hfits
      have hreach := @advanceSegs_spec segs off n hoff (by omega)
      have hlength := hreach.length_eq
      have hne := @advanceSegs_ne_nil segs off n hsegs (by omega)
      intro next hnext
      rw [segCursors, List.mem_cons] at hnext
      rcases hnext with rfl | hnext
      · exact hne
      · exact ih hne hreach.within (by omega) next hnext

end Cursor

section Packets

variable {rcv : TcbRcv} {flags : TcpFlags}

theorem payloads_segPkts
    {seq : U32} {bytes : List UInt8} {ns : List Nat}
    (hfits : ns.sum ≤ bytes.length) :
    payloads (segPkts rcv flags seq bytes ns) = ns := by
  induction ns generalizing seq bytes with
  | nil =>
      rfl
  | cons n ns ih =>
      rw [List.sum_cons] at hfits
      have hrest := @ih (seq + BitVec.ofNat 32 n) (bytes.drop n)
        (by rw [List.length_drop]; omega)
      rw [payloads] at hrest ⊢
      rw [segPkts, List.map_cons, hrest, List.length_take, min_eq_left (by omega)]

theorem consecutive_segPkts
    {seq : U32} {bytes : List UInt8} {ns : List Nat}
    (hfits : ns.sum ≤ bytes.length) :
    Consecutive seq bytes (segPkts rcv flags seq bytes ns) := by
  induction ns generalizing seq bytes with
  | nil =>
      trivial
  | cons n ns ih =>
      rw [List.sum_cons] at hfits
      have hlen : (bytes.take n).length = n := by
        rw [List.length_take, min_eq_left (by omega)]
      refine ⟨rfl, ?_, ?_, ?_⟩
      · dsimp only
        omega
      · dsimp only
        rw [hlen]
      · dsimp only
        rw [hlen]
        exact ih (by rw [List.length_drop]; omega)

end Packets

section Sizes

variable {mtu : Nat} {sendOk : Nat → Bool}

theorem segSizes_le
    {fuel i len n : Nat}
    (hn : n ∈ segSizes mtu sendOk fuel i len) :
    n ≤ mtu := by
  induction fuel generalizing i len with
  | zero =>
      cases hn
  | succ fuel ih =>
      rw [segSizes] at hn
      split at hn
      · cases hn
      · split at hn
        · rcases List.mem_cons.1 hn with rfl | hn
          · exact min_le_right _ _
          · exact ih hn
        · cases hn

theorem segSizes_sum_le
    {fuel i len : Nat} :
    (segSizes mtu sendOk fuel i len).sum ≤ len := by
  induction fuel generalizing i len with
  | zero =>
      exact Nat.zero_le len
  | succ fuel ih =>
      rw [segSizes]
      split
      · exact Nat.zero_le len
      · split
        · have hrest := @ih (i + 1) (len - min len mtu)
          rw [List.sum_cons]
          omega
        · exact Nat.zero_le len

/-- The sizes of the segments of one call. -/
theorem segSizes_two
    {len : Nat} :
    segSizes mtu sendOk (tcbSegsPerSend + 1) 0 len =
      if len = 0 ∨ sendOk 0 = false then []
      else if len ≤ mtu ∨ sendOk 1 = false then [min len mtu]
      else [min len mtu, min (len - mtu) mtu] := by
  by_cases hnone : len = 0 ∨ sendOk 0 = false
  · rw [if_pos hnone, segSizes]
    rcases hnone with rfl | hfail
    · rfl
    · rw [hfail]
      split <;> rfl
  · push Not at hnone
    obtain ⟨hlen, hfirst⟩ := hnone
    replace hfirst : sendOk 0 = true := by simpa using hfirst
    have hrest : segSizes mtu sendOk 1 1 (len - min len mtu) =
        if len ≤ mtu ∨ sendOk 1 = false then [] else [min (len - mtu) mtu] := by
      rw [segSizes]
      by_cases hone : len ≤ mtu
      · have hzero : len - min len mtu = 0 := by omega
        rw [if_pos hzero, if_pos (Or.inl hone)]
      · have hpos : len - min len mtu ≠ 0 := by omega
        rw [if_neg hpos, min_eq_right (Nat.le_of_not_le hone)]
        cases hsecond : sendOk 1 with
        | false =>
            simp
        | true =>
            simp [hone, segSizes]
    rw [if_neg (by simp [hlen, hfirst]), segSizes, if_neg hlen, if_pos hfirst]
    rw [show tcbSegsPerSend = 1 from rfl, Nat.zero_add, hrest]
    split <;> rfl

end Sizes

section Loop

variable {env : TsmEnv} {c : Tsm} {flags : TcpFlags} {segs : Chain} {off : Nat} {sseq : U32}

/-- The loop returns what the inner loop leaves of each segment. -/
theorem sendSegmentsLoop_sent
    (hmtu : 0 < env.cfg.mtu)
    (fuel i : Nat) {dataLen : Nat}
    (hoff : off ≤ headLen segs)
    (hfits : off + dataLen ≤ (chainBytes segs).length) :
    (sendSegmentsLoop env flags fuel i c segs dataLen off sseq).2 =
      ((segCursors segs off (segSizes env.cfg.mtu env.sendOk fuel i dataLen)).map
        fun next => BitVec.ofNat 32 next.2.2).sum := by
  induction fuel generalizing i c segs dataLen off sseq with
  | zero =>
      rfl
  | succ fuel ih =>
      rw [sendSegmentsLoop, segSizes]
      by_cases hzero : dataLen = 0
      · rw [if_pos hzero, if_pos hzero]
        rfl
      · have hpos : 0 < min dataLen env.cfg.mtu := by omega
        rw [if_neg hzero, if_neg hzero]
        simp only [tcpDataSendSegment, dataCloneSeg_spec hpos,
          if_pos (show off + min dataLen env.cfg.mtu ≤ (chainBytes segs).length by omega)]
        by_cases hok : env.sendOk i = true
        · have hnext := @advanceSegs_spec segs off (min dataLen env.cfg.mtu) hoff (by omega)
          have hlength := hnext.length_eq
          simp only [if_pos hok]
          rw [segCursors, List.map_cons, List.sum_cons,
            ih (i + 1) hnext.within (by omega)]
        · simp only [if_neg hok]
          rfl

/-- Without an MTU there is nothing to clone. -/
theorem tcpDataSendSegments_noMtu
    {dataLen : Nat}
    (hmtu : env.cfg.mtu = 0) :
    tcpDataSendSegments env c segs dataLen off sseq flags = (c, 0) := by
  rw [tcpDataSendSegments, sendSegmentsLoop]
  by_cases hzero : dataLen = 0
  · rw [if_pos hzero]
  · rw [if_neg hzero, hmtu, Nat.min_zero]
    rfl

/-- The packets of a call, as slices of the chain. -/
theorem tcpDataSendSegments_spec
    {dataLen : Nat}
    (hmtu : 0 < env.cfg.mtu)
    (hoff : off ≤ headLen segs)
    (hfits : off + dataLen ≤ (chainBytes segs).length) :
    (tcpDataSendSegments env c segs dataLen off sseq flags).1.out =
      c.out ++ (segPkts c.tcb.rcv flags sseq ((chainBytes segs).drop off)
        (segSizes env.cfg.mtu env.sendOk (tcbSegsPerSend + 1) 0 dataLen)).map .pkt := by
  obtain ⟨ns, hrun, -, -, hall⟩ :=
    sendSegmentsLoop_spec hmtu flags (tcbSegsPerSend + 1) 0 c dataLen sseq hoff
  rw [tcpDataSendSegments, hrun, hall hfits]
  rfl

/-- The slices of a call are sound, whatever fails. -/
theorem segmentsSound_segPkts
    {dataLen : Nat}
    (hoff : off < headLen segs)
    (hfits : off + dataLen ≤ (chainBytes segs).length)
    (rcv : TcbRcv) :
    SegmentsSound env.cfg.mtu segs off sseq
      (segPkts rcv flags sseq ((chainBytes segs).drop off)
        (segSizes env.cfg.mtu env.sendOk (tcbSegsPerSend + 1) 0 dataLen)) := by
  have hsum := @segSizes_sum_le env.cfg.mtu env.sendOk (tcbSegsPerSend + 1) 0 dataLen
  have hroom : (segSizes env.cfg.mtu env.sendOk (tcbSegsPerSend + 1) 0 dataLen).sum ≤
      ((chainBytes segs).drop off).length := by
    rw [List.length_drop]
    omega
  have hpayloads := @payloads_segPkts rcv flags sseq _ _ hroom
  have hsegs : segs ≠ [] := by
    rintro rfl
    exact absurd hoff (Nat.not_lt_zero off)
  constructor
  · exact consecutive_segPkts hroom
  · intro pkt hpkt
    have hmem : pkt.data.length ∈ payloads (segPkts rcv flags sseq ((chainBytes segs).drop off)
        (segSizes env.cfg.mtu env.sendOk (tcbSegsPerSend + 1) 0 dataLen)) :=
      List.mem_map.2 ⟨pkt, hpkt, rfl⟩
    rw [hpayloads] at hmem
    exact segSizes_le hmem
  · rw [hpayloads]
    exact segCursors_ne_nil hsegs hoff.le (by omega)

/-- The packets are adjacent slices of the chain, and the walk stays in the chain. -/
theorem segments_consecutive
    {dataLen : Nat}
    (hoff : off < headLen segs)
    (hfits : off + dataLen ≤ (chainBytes segs).length) :
    ∃ pkts, (tcpDataSendSegments env c segs dataLen off sseq flags).1.out =
        c.out ++ pkts.map .pkt ∧
      SegmentsSound env.cfg.mtu segs off sseq pkts := by
  by_cases hmtu : env.cfg.mtu = 0
  · refine ⟨[], ?_, trivial, ?_, ?_⟩
    · rw [tcpDataSendSegments_noMtu hmtu, List.map_nil, List.append_nil]
    · intro pkt hpkt
      cases hpkt
    · intro next hnext
      cases hnext
  · exact ⟨_, tcpDataSendSegments_spec (Nat.pos_of_ne_zero hmtu) hoff.le hfits,
      segmentsSound_segPkts hoff hfits c.tcb.rcv⟩

/-- The packets that a call has added are determined by what has been sent. -/
theorem pkts_unique
    {out : List TcpOutput} {pkts pkts' : List TxPkt}
    (h : out ++ pkts.map .pkt = out ++ pkts'.map .pkt) :
    pkts = pkts' := by
  have hmap := List.append_cancel_left h
  refine List.map_injective_iff.2 ?_ hmap
  intro pkt pkt' heq
  cases heq
  rfl

/-- What should hold, in terms of the sizes of the segments. -/
theorem segmentsOk_iff_sizes
    {dataLen : Nat}
    (hmtu : 0 < env.cfg.mtu)
    (hoff : off < headLen segs)
    (hfits : off + dataLen ≤ (chainBytes segs).length) :
    (∃ pkts,
      (tcpDataSendSegments env c segs dataLen off sseq flags).1.out = c.out ++ pkts.map .pkt ∧
      SegmentsOk env.cfg.mtu segs off sseq pkts
        (tcpDataSendSegments env c segs dataLen off sseq flags).2) ↔
      (segSizes env.cfg.mtu env.sendOk (tcbSegsPerSend + 1) 0 dataLen).length ≤ tcbSegsPerSend ∧
        ((segCursors segs off
          (segSizes env.cfg.mtu env.sendOk (tcbSegsPerSend + 1) 0 dataLen)).map
            fun next => BitVec.ofNat 32 next.2.2).sum =
          BitVec.ofNat 32 (segSizes env.cfg.mtu env.sendOk (tcbSegsPerSend + 1) 0 dataLen).sum := by
  have hout := @tcpDataSendSegments_spec env c flags segs off sseq dataLen hmtu hoff.le hfits
  have hsent : (tcpDataSendSegments env c segs dataLen off sseq flags).2 = _ :=
    sendSegmentsLoop_sent hmtu (tcbSegsPerSend + 1) 0 hoff.le hfits
  have hsum := @segSizes_sum_le env.cfg.mtu env.sendOk (tcbSegsPerSend + 1) 0 dataLen
  have hpayloads := @payloads_segPkts c.tcb.rcv flags sseq ((chainBytes segs).drop off)
    (segSizes env.cfg.mtu env.sendOk (tcbSegsPerSend + 1) 0 dataLen)
    (by rw [List.length_drop]; omega)
  have hlength := congrArg List.length hpayloads
  rw [payloads, List.length_map] at hlength
  rw [hsent]
  constructor
  · rintro ⟨pkts, hpkts, hok⟩
    obtain rfl := pkts_unique (hout.symm.trans hpkts)
    have hreturned := hok.returned
    rw [hpayloads] at hreturned
    exact ⟨hlength ▸ hok.count, hreturned⟩
  · rintro ⟨hcount, hreturned⟩
    refine ⟨_, hout, segmentsSound_segPkts hoff hfits c.tcb.rcv, ?_, ?_⟩
    · rwa [hlength]
    · rwa [hpayloads]

/-- The segments of a call and its result. -/
theorem segments_ok_iff
    {dataLen : U32}
    (hoff : off < headLen segs)
    (hfits : off + dataLen.toNat ≤ (chainBytes segs).length) :
    (∃ pkts,
      (tcpDataSendSegments env c segs dataLen.toNat off sseq flags).1.out =
        c.out ++ pkts.map .pkt ∧
      SegmentsOk env.cfg.mtu segs off sseq pkts
        (tcpDataSendSegments env c segs dataLen.toNat off sseq flags).2) ↔
      SegmentsFit env segs dataLen.toNat off := by
  by_cases hmtu : env.cfg.mtu = 0
  · refine iff_of_true ⟨[], ?_, ⟨trivial, ?_, ?_⟩, Nat.zero_le _, ?_⟩ (.inr (.inl hmtu))
    · rw [tcpDataSendSegments_noMtu hmtu, List.map_nil, List.append_nil]
    · intro pkt hpkt
      cases hpkt
    · intro next hnext
      cases hnext
    · rw [tcpDataSendSegments_noMtu hmtu]
      rfl
  · have hpos := Nat.pos_of_ne_zero hmtu
    rw [segmentsOk_iff_sizes hpos hoff hfits, segSizes_two, SegmentsFit]
    have hmax := dataLen.isLt
    by_cases hnone : dataLen.toNat = 0 ∨ env.sendOk 0 = false
    · rw [if_pos hnone]
      refine iff_of_true ⟨Nat.zero_le _, rfl⟩ ?_
      rcases hnone with hzero | hfail
      · exact .inl hzero
      · exact .inr (.inr (.inl hfail))
    · rw [if_neg hnone]
      push Not at hnone
      by_cases hone : dataLen.toNat ≤ env.cfg.mtu ∨ env.sendOk 1 = false
      · -- one segment: its bytes are counted if it ends in the first mbuf
        rw [if_pos hone]
        have hleft := @advanceSegs_left_le segs off (min dataLen.toNat env.cfg.mtu)
        have hcount : BitVec.ofNat 32 (advanceSegs segs off (min dataLen.toNat env.cfg.mtu)).2.2 =
            BitVec.ofNat 32 (min dataLen.toNat env.cfg.mtu) ↔
              off + min dataLen.toNat env.cfg.mtu ≤ headLen segs := by
          rw [← advanceSegs_left_eq_iff hoff, ← BitVec.toNat_inj, BitVec.toNat_ofNat,
            BitVec.toNat_ofNat, Nat.mod_eq_of_lt (by omega), Nat.mod_eq_of_lt (by omega)]
        simp only [segCursors, List.map_cons, List.map_nil, List.sum_cons, List.sum_nil,
          add_zero, List.length_singleton, hcount]
        constructor
        · rintro ⟨-, hend⟩
          exact .inr (.inr (.inr ⟨hone, hend⟩))
        · rintro (hzero | hnomtu | hfail | ⟨-, hend⟩)
          · exact absurd hzero hnone.1
          · exact absurd hnomtu hmtu
          · exact absurd hfail hnone.2
          · exact ⟨le_rfl, hend⟩
      · -- two segments are one too many
        rw [if_neg hone]
        refine iff_of_false ?_ ?_
        · rintro ⟨hcount, -⟩
          exact absurd hcount (by simp [tcbSegsPerSend])
        · rintro (hzero | hnomtu | hfail | ⟨hone', -⟩)
          · exact hnone.1 hzero
          · exact hmtu hnomtu
          · exact hnone.2 hfail
          · exact hone hone'

/-- An MTU with which every segment goes out. -/
def plainEnv (mtu : Nat) : TsmEnv :=
  { cfg := { defaultConfig with mtu := mtu }
    answer := fun _ bytes => .consume (BitVec.ofNat 32 bytes.length)
    sendOk := fun _ => true
    dataPending := false }

/-- Six bytes in two mbufs. -/
def twoMbufs : Chain :=
  [⟨0, [1, 2], 6, 2⟩, ⟨1, [3, 4, 5, 6], 4, 1⟩]

/-- The six bytes are sent as one call should send them. -/
def SixBytesOk (mtu : Nat) : Prop :=
  ∃ pkts,
    (tcpDataSendSegments (plainEnv mtu) (Tsm.start blankTcb) twoMbufs 6 0 0
      { ack := true }).1.out = pkts.map .pkt ∧
    SegmentsOk mtu twoMbufs 0 0 pkts
      (tcpDataSendSegments (plainEnv mtu) (Tsm.start blankTcb) twoMbufs 6 0 0
        { ack := true }).2

/-- The length of the payload of a packet, among the outputs. -/
def outputLength : TcpOutput → Nat
  | .pkt p => p.data.length
  | .notif _ | .deliver _ | .enter _ | .asserted | .missingSeq _ => 0

/--
With an MTU of two bytes two segments go out; with an MTU of six bytes one does, and the call
returns four.
-/
theorem segments_not_ok_two :
    ¬ SixBytesOk 2 ∧ ¬ SixBytesOk 6 := by
  constructor
  · rintro ⟨pkts, hout, hok⟩
    have hlength := congrArg List.length hout
    have hcount := hok.count
    rw [List.length_map] at hlength
    rw [← hlength] at hcount
    exact absurd hcount (by decide)
  · rintro ⟨pkts, hout, hok⟩
    have hdata := congrArg (List.map outputLength) hout
    have hreturned := hok.returned
    rw [List.map_map] at hdata
    rw [show payloads pkts = [6] from hdata.symm] at hreturned
    exact absurd hreturned (by decide)

/-- One segment within the first mbuf. -/
theorem segments_ok_iff_two :
    ∃ pkts,
      (tcpDataSendSegments (plainEnv 6) (Tsm.start blankTcb) twoMbufs (2 : U32).toNat 0 0
        { ack := true }).1.out = (Tsm.start blankTcb).out ++ pkts.map .pkt ∧
      SegmentsOk (plainEnv 6).cfg.mtu twoMbufs 0 0 pkts
        (tcpDataSendSegments (plainEnv 6) (Tsm.start blankTcb) twoMbufs (2 : U32).toNat 0 0
          { ack := true }).2 :=
  (segments_ok_iff (by decide) (by decide)).2
    (.inr (.inr (.inr ⟨.inl (by decide), by decide⟩)))

end Loop

end RetransmissionQueue
end Warp17
