import Warp17.SendQueue

/-!
# The retransmission queue keeps its bytes

`QueueOk` is the representation invariant of `tcb_retrans_t`: the mbufs are distinct and hold
data, the total size and the `pkt_len` of the first mbuf are the number of bytes queued, and
the tail pointer is the last mbuf.  Storing appends to the queued bytes, the acknowledgement
clean-up drops the first of them, and the segmenting loop sends slices of them.

**Results**
- `tcpDataStoreSend_ok`: storing appends the bytes or leaves the queue alone.
- `tsmCleanupRetransQueu_spec`: the clean-up of an acknowledgement within the queue drops its bytes.
- `sendSegmentsLoop_spec`: the segments of a send are adjacent slices of the queue, and
  `SND.NXT` follows those that start at it.
-/

namespace Warp17
namespace RetransmissionQueue

open SequenceComparison MbufChains ControlBlock SendQueue

/-- The bytes in the retransmission queue, sent or not. -/
def queued (tcb : Tcb) : List UInt8 :=
  chainBytes tcb.retrans.dataMbufs

/-- The number of sequence numbers in flight. -/
def flight (tcb : Tcb) : Nat :=
  (tcb.snd.nxt - tcb.snd.una).toNat

/-- The representation invariant of the retransmission queue. -/
structure QueueOk (winSize : Nat) (r : TcbRetrans) : Prop where
  holdsData : ∀ m ∈ r.dataMbufs, m.data ≠ []
  dataLen : ∀ m ∈ r.dataMbufs, m.data.length < 2 ^ 16
  nodup : (r.dataMbufs.map Mbuf.id).Nodup
  total : r.totalSize = BitVec.ofNat 32 (chainBytes r.dataMbufs).length
  bounded : (chainBytes r.dataMbufs).length ≤ winSize
  pktLen : chainPktLen r.dataMbufs = r.totalSize
  lastMbuf : r.lastMbuf = rtePktmbufLastseg r.dataMbufs

theorem QueueOk.total_toNat
    {winSize : Nat} {r : TcbRetrans}
    (h : QueueOk winSize r)
    (hwin : winSize < 2 ^ 32) :
    r.totalSize.toNat = (chainBytes r.dataMbufs).length := by
  have hb := h.bounded
  rw [h.total, BitVec.toNat_ofNat, Nat.mod_eq_of_lt (by omega)]

theorem queueOk_empty
    (winSize : Nat) :
    QueueOk winSize { dataMbufs := [], lastMbuf := none, totalSize := 0 } := by
  refine ⟨?_, ?_, ?_, ?_, ?_, ?_, ?_⟩ <;> simp [chainPktLen, rtePktmbufLastseg]

/-- A queue without bytes has no mbufs. -/
theorem QueueOk.eq_nil_iff
    {winSize : Nat} {r : TcbRetrans}
    (h : QueueOk winSize r) :
    r.dataMbufs = [] ↔ (chainBytes r.dataMbufs).length = 0 := by
  constructor
  · intro hnil
    simp [hnil]
  · intro hlen
    cases hc : r.dataMbufs with
    | nil =>
        rfl
    | cons m rest =>
        have hm := List.length_pos_iff.2 (h.holdsData m (by simp [hc]))
        rw [hc, chainBytes_cons, List.length_append] at hlen
        omega

/-- The total size is zero when nothing is queued, and only then. -/
theorem QueueOk.total_eq_zero
    {winSize : Nat} {r : TcbRetrans}
    (h : QueueOk winSize r)
    (hwin : winSize < 2 ^ 32) :
    r.totalSize = 0 ↔ chainBytes r.dataMbufs = [] := by
  have htotal := h.total_toNat hwin
  rw [← List.length_eq_zero_iff, ← htotal]
  constructor
  · intro hzero
    rw [hzero]
    rfl
  · intro hzero
    exact BitVec.eq_of_toNat_eq hzero

section Store

theorem linkAfter_last
    {c new : Chain} {last : Nat}
    (hnodup : (c.map Mbuf.id).Nodup)
    (hlast : rtePktmbufLastseg c = some last) :
    linkAfter last new c = c ++ new := by
  induction c with
  | nil =>
      simp [rtePktmbufLastseg] at hlast
  | cons m rest ih =>
      cases rest with
      | nil =>
          have hid : m.id = last := by
            simpa [rtePktmbufLastseg] using hlast
          simp [linkAfter, hid]
      | cons n tail =>
          have hlast' : rtePktmbufLastseg (n :: tail) = some last := by
            simpa [rtePktmbufLastseg] using hlast
          have hmem : last ∈ (n :: tail).map Mbuf.id := by
            obtain ⟨x, hx, rfl⟩ := Option.map_eq_some_iff.1 hlast'
            exact List.mem_map_of_mem (List.mem_of_getLast? hx)
          have hne : m.id ≠ last := by
            rintro rfl
            exact (List.nodup_cons.1 hnodup).1 hmem
          rw [linkAfter, if_neg hne, ih (List.nodup_cons.1 hnodup).2 hlast']
          rfl

theorem rtePktmbufLastseg_append
    (c : Chain) {d : Chain}
    (hd : d ≠ []) :
    rtePktmbufLastseg (c ++ d) = rtePktmbufLastseg d := by
  rw [rtePktmbufLastseg, List.getLast?_append_of_ne_nil _ hd]
  rfl

/-- Two chains that differ in the bookkeeping fields of their mbufs only. -/
structure SameMbufs (c d : Chain) : Prop where
  ids : d.map Mbuf.id = c.map Mbuf.id
  data : d.map Mbuf.data = c.map Mbuf.data

theorem SameMbufs.bytes
    {c d : Chain}
    (h : SameMbufs c d) :
    chainBytes d = chainBytes c := by
  rw [chainBytes, chainBytes, List.flatMap_def, List.flatMap_def, h.data]

theorem SameMbufs.lastseg
    {c d : Chain}
    (h : SameMbufs c d) :
    rtePktmbufLastseg d = rtePktmbufLastseg c := by
  rw [rtePktmbufLastseg, rtePktmbufLastseg, ← List.getLast?_map, ← List.getLast?_map, h.ids]

theorem SameMbufs.forall_data
    {c d : Chain} {p : List UInt8 → Prop}
    (h : SameMbufs c d)
    (hc : ∀ m ∈ c, p m.data) :
    ∀ m ∈ d, p m.data := by
  intro m hm
  have hdata : m.data ∈ c.map Mbuf.data := h.data ▸ List.mem_map_of_mem hm
  obtain ⟨n, hn, heq⟩ := List.mem_map.1 hdata
  exact heq ▸ hc n hn

theorem setHeadPktLen_same
    (len : U32) (c : Chain) :
    SameMbufs c (setHeadPktLen len c) := by
  cases c <;> exact ⟨rfl, rfl⟩

theorem chainPktLen_setHeadPktLen
    {len : U32} {c : Chain}
    (hc : c ≠ []) :
    chainPktLen (setHeadPktLen len c) = len := by
  cases c with
  | nil =>
      exact absurd rfl hc
  | cons m rest =>
      rfl

theorem addHeadNbSegs_same
    (n : BitVec 16) (c : Chain) :
    SameMbufs c (addHeadNbSegs n c) := by
  cases c <;> exact ⟨rfl, rfl⟩

theorem SameMbufs.trans
    {c d e : Chain}
    (h : SameMbufs c d)
    (h' : SameMbufs d e) :
    SameMbufs c e :=
  ⟨h'.ids.trans h.ids, h'.data.trans h.data⟩

/-- The chain after `tcp_data_store_send()` has linked `data` to it. -/
theorem linkData_same
    {winSize : Nat} {r : TcbRetrans}
    (data : Chain)
    (h : QueueOk winSize r) :
    SameMbufs (r.dataMbufs ++ data) (linkData r data) := by
  have hlast := h.lastMbuf
  unfold linkData
  cases hopt : r.lastMbuf with
  | none =>
      rw [hopt, eq_comm, rtePktmbufLastseg, Option.map_eq_none_iff,
        List.getLast?_eq_none_iff] at hlast
      rw [hlast]
      exact ⟨rfl, rfl⟩
  | some last =>
      simp only [linkAfter_last h.nodup (hlast.symm.trans hopt)]
      exact addHeadNbSegs_same _ _

/-- A chain the application may hand over: well formed, of mbufs that are not in the queue. -/
structure SendChainOk (tcb : Tcb) (data : Chain) : Prop where
  chain : ChainOk data
  size : (chainBytes data).length < 2 ^ 32
  nodup : (data.map Mbuf.id).Nodup
  fresh : ∀ m ∈ data, ∀ q ∈ tcb.retrans.dataMbufs, m.id ≠ q.id

instance (tcb : Tcb) (data : Chain) : Decidable (SendChainOk tcb data) :=
  decidable_of_iff
    (ChainOk data ∧ (chainBytes data).length < 2 ^ 32 ∧ (data.map Mbuf.id).Nodup ∧
      ∀ m ∈ data, ∀ q ∈ tcb.retrans.dataMbufs, m.id ≠ q.id)
    ⟨fun h => ⟨h.1, h.2.1, h.2.2.1, h.2.2.2⟩, fun h => ⟨h.chain, h.size, h.nodup, h.fresh⟩⟩

/-- What `tcp_data_store_send()` leaves behind when it takes the chain. -/
structure Stored (winSize : Nat) (data : Chain) (tcb tcb' : Tcb) : Prop where
  queue : QueueOk winSize tcb'.retrans
  bytes : queued tcb' = queued tcb ++ chainBytes data
  others : tcb' = { tcb with retrans := tcb'.retrans }

theorem tcbAvailSend_toNat
    {cfg : TcpConfig} {tcb : Tcb}
    (h : QueueOk cfg.sockopt.tcpoWinSize.toNat tcb.retrans) :
    (tcbAvailSend cfg tcb).toNat ≤
      cfg.sockopt.tcpoWinSize.toNat - (queued tcb).length := by
  have htotal := h.total_toNat cfg.sockopt.tcpoWinSize.isLt
  have hb := h.bounded
  have hsub : (cfg.sockopt.tcpoWinSize - tcb.retrans.totalSize).toNat =
      cfg.sockopt.tcpoWinSize.toNat - (queued tcb).length := by
    rw [BitVec.toNat_sub_of_le (by rw [BitVec.le_def]; omega), htotal, queued]
  unfold tcbAvailSend
  simp only
  split
  · exact hsub.le
  · rename_i hlt
    rw [BitVec.lt_def] at hlt
    omega

/-- The queue after `tcp_data_store_send()` has linked `data` to it. -/
theorem queueOk_linkData
    {winSize : Nat} {tcb : Tcb} {data : Chain}
    (h : QueueOk winSize tcb.retrans)
    (hdata : SendChainOk tcb data)
    (hfits : (queued tcb).length + (chainBytes data).length ≤ winSize) :
    QueueOk winSize
      { dataMbufs :=
          setHeadPktLen (tcb.retrans.totalSize + chainPktLen data) (linkData tcb.retrans data)
        lastMbuf := rtePktmbufLastseg data
        totalSize := tcb.retrans.totalSize + chainPktLen data } := by
  have hsame := (linkData_same data h).trans
    (setHeadPktLen_same (tcb.retrans.totalSize + chainPktLen data) _)
  have hbytes := hsame.bytes
  rw [chainBytes_append] at hbytes
  refine ⟨?_, ?_, ?_, ?_, ?_, ?_, ?_⟩
  · refine hsame.forall_data (p := (· ≠ [])) ?_
    intro m hm
    rcases List.mem_append.1 hm with hm | hm
    · exact h.holdsData m hm
    · exact hdata.chain.holdsData m hm
  · refine hsame.forall_data (p := (·.length < 2 ^ 16)) ?_
    intro m hm
    rcases List.mem_append.1 hm with hm | hm
    · exact h.dataLen m hm
    · exact hdata.chain.dataLen m hm
  · simp only [hsame.ids, List.map_append]
    refine List.nodup_append.2 ⟨h.nodup, hdata.nodup, ?_⟩
    intro a ha b hb heq
    obtain ⟨q, hq, rfl⟩ := List.mem_map.1 ha
    obtain ⟨m, hm, rfl⟩ := List.mem_map.1 hb
    exact hdata.fresh m hm q hq heq.symm
  · simp only [hbytes]
    rw [h.total, hdata.chain.pktLen, ← BitVec.ofNat_add, List.length_append]
  · simp only [hbytes, List.length_append]
    exact hfits
  · apply chainPktLen_setHeadPktLen
    intro hnil
    have hids := (linkData_same data h).ids
    rw [hnil, List.map_nil, eq_comm, List.map_eq_nil_iff, List.append_eq_nil_iff] at hids
    exact hdata.chain.nonempty hids.2
  · simp only [hsame.lastseg]
    rw [rtePktmbufLastseg_append _ hdata.chain.nonempty]

/-- Storing takes the chain as a whole, or frees it and leaves the control block alone. -/
theorem tcpDataStoreSend_ok
    {cfg : TcpConfig} {tcb : Tcb} {data : Chain}
    (h : QueueOk cfg.sockopt.tcpoWinSize.toNat tcb.retrans)
    (hdata : SendChainOk tcb data) :
    tcpDataStoreSend cfg tcb data = (tcb, 0) ∨
      ∃ tcb',
        tcpDataStoreSend cfg tcb data = (tcb', BitVec.ofNat 32 (chainBytes data).length) ∧
        Stored cfg.sockopt.tcpoWinSize.toNat data tcb tcb' := by
  have hlen : (chainPktLen data).toNat = (chainBytes data).length := by
    rw [hdata.chain.pktLen, BitVec.toNat_ofNat, Nat.mod_eq_of_lt hdata.size]
  unfold tcpDataStoreSend
  split
  · exact Or.inl rfl
  · rename_i hroom
    right
    rw [BitVec.not_lt, BitVec.le_def, hlen] at hroom
    have havail := tcbAvailSend_toNat h
    have hb : (queued tcb).length ≤ cfg.sockopt.tcpoWinSize.toNat := h.bounded
    refine ⟨{ tcb with retrans := _ }, ?_, queueOk_linkData h hdata (by omega), ?_, rfl⟩
    · refine Prod.ext rfl ?_
      cases hlast : tcb.retrans.lastMbuf with
      | some last =>
          exact hdata.chain.pktLen
      | none =>
          -- an empty queue: the total is the length of the new chain
          have hl := h.lastMbuf
          rw [hlast, eq_comm, rtePktmbufLastseg, Option.map_eq_none_iff,
            List.getLast?_eq_none_iff] at hl
          have htotal : tcb.retrans.totalSize = 0 := by
            rw [h.total, hl]
            rfl
          simp only [htotal, zero_add]
          exact hdata.chain.pktLen
    · rw [queued, queued, ((linkData_same data h).trans (setHeadPktLen_same _ _)).bytes,
        chainBytes_append]

end Store

section Cleanup

/-- The loop over the mbufs that are acknowledged as a whole leaves a suffix of the chain. -/
theorem dropAcked_spec
    {c : Chain} {len : U32} {acked : Nat}
    (hlen : c ≠ [] → len = BitVec.ofNat 32 (chainBytes c).length)
    (hacked : acked ≤ (chainBytes c).length) :
    (dropAcked c len acked = ([], 0) ∧ acked = (chainBytes c).length) ∨
      ∃ m rest left,
        m :: rest <:+ c ∧
        dropAcked c len acked =
          ({ m with pktLen := BitVec.ofNat 32 (chainBytes (m :: rest)).length } :: rest,
            left) ∧
        (left = 0 ∨ left < m.data.length) ∧
        (chainBytes (m :: rest)).drop left = (chainBytes c).drop acked := by
  induction c generalizing len acked with
  | nil =>
      left
      have hzero : acked = 0 := by
        simpa using hacked
      simp [dropAcked, hzero]
  | cons m rest ih =>
      rw [chainBytes_cons, List.length_append] at hacked
      have hlen' := hlen (by simp)
      by_cases h : 0 < acked ∧ m.data.length ≤ acked
      · have hrest : rest ≠ [] → len - BitVec.ofNat 32 m.data.length =
            BitVec.ofNat 32 (chainBytes rest).length := by
          intro _
          rw [hlen', chainBytes_cons, List.length_append,
            SerialArithmetic.ofNat_sub_ofNat (by omega), Nat.add_sub_cancel_left]
        rw [dropAcked, if_pos h]
        rcases @ih _ (acked - m.data.length) hrest (by omega) with
          ⟨hnil, hall⟩ | ⟨n, tail, left, hsuf, heq, hleft, hbytes⟩
        · left
          refine ⟨hnil, ?_⟩
          rw [chainBytes_cons, List.length_append]
          omega
        · right
          refine ⟨n, tail, left, hsuf.trans (List.suffix_cons m rest), heq, hleft, ?_⟩
          rw [hbytes, chainBytes_cons, List.drop_append, List.drop_eq_nil_of_le h.2,
            List.nil_append]
      · right
        refine ⟨m, rest, acked, List.suffix_rfl, ?_, by omega, rfl⟩
        rw [dropAcked, if_neg h, ← hlen']

/-- Trimming less than the first mbuf holds. -/
theorem dataAdjChain_head
    {m : Mbuf} {t : Nat}
    (rest : Chain)
    (hlt : t < m.data.length)
    (hsmall : m.data.length < 2 ^ 16) :
    dataAdjChain (m :: rest) (BitVec.ofNat 32 t) =
      { m with data := m.data.drop t, pktLen := m.pktLen - BitVec.ofNat 32 t } :: rest := by
  have hdata : m.data.drop t ≠ [] := by
    rw [← List.length_pos_iff, List.length_drop]
    omega
  have hcut : rtePktmbufAdj m (BitVec.ofNat 32 t) =
      some { m with data := m.data.drop t, pktLen := m.pktLen - BitVec.ofNat 32 t } := by
    rw [rtePktmbufAdj_eq m (by omega), if_neg (by omega)]
  simp only [dataAdjChain, hcut, hdata, ne_eq, not_false_eq_true, if_true]

/-- An acknowledgement of bytes in the queue drops them, and cuts at most one mbuf. -/
theorem ackedChain_spec
    {winSize : Nat} {r : TcbRetrans} {acked : Nat}
    (h : QueueOk winSize r)
    (hacked : acked ≤ (chainBytes r.dataMbufs).length) :
    (ackedChain r.dataMbufs acked = [] ∧ acked = (chainBytes r.dataMbufs).length) ∨
      ∃ m rest left,
        m :: rest <:+ r.dataMbufs ∧
        left < m.data.length ∧
        ackedChain r.dataMbufs acked =
          { m with
            data := m.data.drop left
            pktLen := BitVec.ofNat 32 ((chainBytes r.dataMbufs).length - acked) } :: rest ∧
        (chainBytes (m :: rest)).drop left = (chainBytes r.dataMbufs).drop acked := by
  have hlen : r.dataMbufs ≠ [] →
      chainPktLen r.dataMbufs = BitVec.ofNat 32 (chainBytes r.dataMbufs).length := by
    intro _
    rw [h.pktLen, h.total]
  rcases dropAcked_spec hlen hacked with ⟨hnil, hall⟩ | ⟨m, rest, left, hsuf, heq, hleft, hbytes⟩
  · left
    refine ⟨?_, hall⟩
    simp [ackedChain, hnil, dropEmptyHead]
  · right
    have hm : m ∈ r.dataMbufs := hsuf.subset (by simp)
    have hpos := List.length_pos_iff.2 (h.holdsData m hm)
    have hsmall := h.dataLen m hm
    have hcount := congrArg List.length hbytes
    rw [List.length_drop, List.length_drop] at hcount
    refine ⟨m, rest, left, hsuf, by omega, ?_, hbytes⟩
    rcases Nat.eq_zero_or_pos left with rfl | hcut
    · -- the acknowledgement ends between two mbufs
      have hhead : m.data ≠ [] := h.holdsData m hm
      simp only [ackedChain, heq, if_true, dropEmptyHead, hhead, if_false, List.drop_zero]
      rw [Nat.sub_zero] at hcount
      rw [hcount]
    · have hhead : m.data.drop left ≠ [] := by
        rw [← List.length_pos_iff, List.length_drop]
        omega
      have hadj := dataAdjChain_head rest (t := left)
        (m := { m with pktLen := BitVec.ofNat 32 (chainBytes (m :: rest)).length })
        (by simp only; omega) hsmall
      have hle : left ≤ (chainBytes (m :: rest)).length := by
        rw [chainBytes_cons, List.length_append]
        omega
      simp only [ackedChain, heq, if_neg (Nat.pos_iff_ne_zero.1 hcut), hadj, dropEmptyHead,
        hhead, if_false]
      rw [SerialArithmetic.ofNat_sub_ofNat hle, hcount]

/-- What the clean-up leaves when it drops `acked` bytes. -/
structure Cleaned (winSize : Nat) (tcb : Tcb) (segAck : U32) (acked : Nat) (tcb' : Tcb) :
    Prop where
  queue : QueueOk winSize tcb'.retrans
  bytes : queued tcb' = (queued tcb).drop acked
  snd : tcb'.snd = { tcb.snd with una := segAck }
  rto : tcb'.onRtoList = if (queued tcb').length = 0 then false else tcb.onRtoList
  retransCnt : tcb'.retransCnt = 0
  others :
    tcb' = { tcb with
      retrans := tcb'.retrans
      snd := tcb'.snd
      onRtoList := tcb'.onRtoList
      retransCnt := tcb'.retransCnt }

theorem cleanedTcb_ok
    {winSize : Nat} {tcb : Tcb} {acked : Nat}
    (segAck : U32)
    (h : QueueOk winSize tcb.retrans)
    (hwin : winSize < 2 ^ 32)
    (hacked : acked ≤ (queued tcb).length) :
    Cleaned winSize tcb segAck acked (cleanedTcb tcb segAck (BitVec.ofNat 32 acked)) := by
  have hb : (queued tcb).length ≤ winSize := h.bounded
  have hnat : (BitVec.ofNat 32 acked).toNat = acked := by
    rw [BitVec.toNat_ofNat, Nat.mod_eq_of_lt (by omega)]
  have htotal : tcb.retrans.totalSize - BitVec.ofNat 32 acked =
      BitVec.ofNat 32 ((queued tcb).length - acked) := by
    rw [h.total]
    exact SerialArithmetic.ofNat_sub_ofNat hacked
  have hcleaned : cleanedTcb tcb segAck (BitVec.ofNat 32 acked) =
      { tcb with
        retrans :=
          { dataMbufs := ackedChain tcb.retrans.dataMbufs acked
            lastMbuf :=
              if ackedChain tcb.retrans.dataMbufs acked = [] then none
              else tcb.retrans.lastMbuf
            totalSize := BitVec.ofNat 32 ((queued tcb).length - acked) }
        onRtoList :=
          if ackedChain tcb.retrans.dataMbufs acked = [] then false else tcb.onRtoList
        snd := { tcb.snd with una := segAck }
        retransCnt := 0 } := by
    simp only [cleanedTcb, hnat, htotal]
  rw [hcleaned]
  rcases ackedChain_spec h hacked with ⟨hnil, hall⟩ | ⟨m, rest, left, hsuf, hleft, heq, hbytes⟩
  · have hall' : acked = (queued tcb).length := hall
    refine ⟨?_, ?_, rfl, ?_, rfl, rfl⟩
    · simp only [hnil, if_true]
      rw [hall', Nat.sub_self]
      exact queueOk_empty winSize
    · have hdrop : (queued tcb).drop acked = [] := by
        rw [hall', List.drop_length]
      rw [hdrop, queued, hnil, chainBytes_nil]
    · simp [queued, hnil]
  · have hm : m ∈ tcb.retrans.dataMbufs := hsuf.subset (by simp)
    have hdrop : chainBytes (ackedChain tcb.retrans.dataMbufs acked) =
        (queued tcb).drop acked := by
      rw [heq, chainBytes_cons, queued, ← hbytes, chainBytes_cons,
        List.drop_append_of_le_length hleft.le]
    have hcount : (chainBytes (ackedChain tcb.retrans.dataMbufs acked)).length =
        (queued tcb).length - acked := by
      rw [hdrop, List.length_drop]
    have hne : ackedChain tcb.retrans.dataMbufs acked ≠ [] := by
      rw [heq]
      simp
    have hpos : (chainBytes (ackedChain tcb.retrans.dataMbufs acked)).length ≠ 0 := by
      rw [heq, chainBytes_cons, List.length_append, List.length_drop]
      omega
    refine ⟨⟨?_, ?_, ?_, ?_, ?_, ?_, ?_⟩, hdrop, rfl, ?_, rfl, rfl⟩
    · simp only [heq]
      intro x hx
      rcases List.mem_cons.1 hx with rfl | hx
      · rw [← List.length_pos_iff, List.length_drop]
        omega
      · exact h.holdsData x (hsuf.subset (List.mem_cons_of_mem m hx))
    · simp only [heq]
      intro x hx
      rcases List.mem_cons.1 hx with rfl | hx
      · have hsmall := h.dataLen m hm
        simp only [List.length_drop]
        omega
      · exact h.dataLen x (hsuf.subset (List.mem_cons_of_mem m hx))
    · simp only [heq]
      exact (hsuf.sublist.map Mbuf.id).nodup h.nodup
    · simp only [hcount]
    · simp only [hcount]
      omega
    · simp only [heq]
      rfl
    · obtain ⟨front, hfront⟩ := hsuf
      simp only [hne, if_false]
      rw [h.lastMbuf, heq, ← hfront, rtePktmbufLastseg_append _ (by simp)]
      cases rest <;> simp [rtePktmbufLastseg]
    · simp only [queued, hne, hpos, if_false]

/-- The effects of a clean-up that drops something. -/
structure CleanUp (winSize : Nat) (c : Tsm) (segAck : U32) (c' : Tsm) : Prop where
  pos : 0 < (segAck - c.tcb.snd.una).toNat
  within : (segAck - c.tcb.snd.una).toNat ≤ (queued c.tcb).length
  cleaned : Cleaned winSize c.tcb segAck (segAck - c.tcb.snd.una).toNat c'.tcb
  out :
    c'.out = c.out ++
      if tcpSndWinFull c.tcb && !tcpSndWinFull c'.tcb then [.notif .sessWinAvail] else []
  dataSent : c'.dataSent = c.dataSent

/-- The clean-up drops what is acknowledged when that is in the queue, and nothing otherwise. -/
theorem tsmCleanupRetransQueu_spec
    {winSize : Nat} {c : Tsm}
    (segAck : U32)
    (h : QueueOk winSize c.tcb.retrans)
    (hwin : winSize < 2 ^ 32) :
    (tsmCleanupRetransQueu c segAck = c ∧
      (segAck = c.tcb.snd.una ∨ (queued c.tcb).length < (segAck - c.tcb.snd.una).toNat)) ∨
    CleanUp winSize c segAck (tsmCleanupRetransQueu c segAck) := by
  have htotal := h.total_toNat hwin
  by_cases hzero : segDIFF segAck c.tcb.snd.una = 0
  · left
    refine ⟨?_, Or.inl (sub_eq_zero.1 hzero)⟩
    simp only [tsmCleanupRetransQueu, hzero, if_true]
  by_cases hmore : c.tcb.retrans.totalSize < segDIFF segAck c.tcb.snd.una
  · left
    refine ⟨?_, Or.inr ?_⟩
    · simp only [tsmCleanupRetransQueu, hzero, if_false, hmore, if_true]
    · rw [BitVec.lt_def, htotal] at hmore
      exact hmore
  · right
    have hle := hmore
    rw [BitVec.not_lt, BitVec.le_def, htotal] at hle
    have hclean := cleanedTcb_ok segAck h hwin hle
    rw [BitVec.ofNat_toNat, BitVec.setWidth_eq] at hclean
    have hpos : (segDIFF segAck c.tcb.snd.una).toNat ≠ 0 := by
      intro h0
      exact hzero (BitVec.eq_of_toNat_eq (by simpa using h0))
    have hrun : tsmCleanupRetransQueu c segAck =
        if tcpSndWinFull c.tcb &&
            !tcpSndWinFull (cleanedTcb c.tcb segAck (segDIFF segAck c.tcb.snd.una)) then
          (c.onTcb (cleanedTcb · segAck (segDIFF segAck c.tcb.snd.una))).tcpNotif .sessWinAvail
        else
          c.onTcb (cleanedTcb · segAck (segDIFF segAck c.tcb.snd.una)) := by
      simp only [tsmCleanupRetransQueu, hzero, if_false, hmore, onTcb_tcb]
    rw [hrun]
    split
    · rename_i hfull
      refine ⟨Nat.pos_of_ne_zero hpos, hle, hclean, ?_, rfl⟩
      simp [hfull]
    · rename_i hfull
      refine ⟨Nat.pos_of_ne_zero hpos, hle, hclean, ?_, rfl⟩
      simp [hfull]

end Cleanup

section Segments

/-- The length of the first mbuf. -/
def headLen : Chain → Nat
  | [] => 0
  | m :: _ => m.data.length

/-- A position of the chain, found by walking over the mbufs in front of it. -/
structure Reaches (c : Chain) (off : Nat) (segs : Chain) (segsOff : Nat) : Prop where
  split : ∃ front, c = front ++ segs ∧ off = (chainBytes front).length + segsOff
  within : segsOff ≤ headLen segs

theorem Reaches.drop_eq
    {c segs : Chain} {off segsOff : Nat}
    (h : Reaches c off segs segsOff) :
    (chainBytes segs).drop segsOff = (chainBytes c).drop off := by
  obtain ⟨front, rfl, rfl⟩ := h.split
  rw [chainBytes_append, ← List.drop_drop, List.drop_left]

theorem Reaches.length_eq
    {c segs : Chain} {off segsOff : Nat}
    (h : Reaches c off segs segsOff) :
    (chainBytes c).length + segsOff = off + (chainBytes segs).length := by
  obtain ⟨front, rfl, rfl⟩ := h.split
  rw [chainBytes_append, List.length_append]
  omega

theorem seekOffset_spec
    {c : Chain} {off : Nat}
    (hoff : off ≤ (chainBytes c).length) :
    Reaches c off (seekOffset c off).1 (seekOffset c off).2 := by
  induction c generalizing off with
  | nil =>
      have hzero : off = 0 := by
        simpa using hoff
      exact ⟨⟨[], by simp [seekOffset, hzero]⟩, by simp [seekOffset, hzero]⟩
  | cons m rest ih =>
      rw [chainBytes_cons, List.length_append] at hoff
      by_cases h : m.data.length ≤ off
      · obtain ⟨⟨front, hfront, hlen⟩, hwithin⟩ := @ih (off - m.data.length) (by omega)
        rw [seekOffset, if_pos h]
        refine ⟨⟨m :: front, ?_, ?_⟩, hwithin⟩
        · rw [List.cons_append, ← hfront]
        · rw [chainBytes_cons, List.length_append]
          omega
      · rw [seekOffset, if_neg h]
        exact ⟨⟨[], rfl, by simp⟩, by simp only [headLen]; omega⟩

/-- Past the end of the chain the walk leaves no mbuf. -/
theorem seekOffset_past
    {c : Chain} {off : Nat}
    (hoff : (chainBytes c).length ≤ off) :
    (seekOffset c off).1 = [] := by
  induction c generalizing off with
  | nil =>
      rfl
  | cons m rest ih =>
      rw [chainBytes_cons, List.length_append] at hoff
      rw [seekOffset, if_pos (by omega)]
      exact ih (by omega)

theorem cloneParts_spec
    {c : Chain} {off len : Nat}
    (hlen : 0 < len)
    (hoff : off ≤ headLen c) :
    cloneParts c off len =
      if off + len ≤ (chainBytes c).length then
        some (((chainBytes c).drop off).take len)
      else
        none := by
  induction c generalizing off len with
  | nil =>
      have hzero : off = 0 := by
        simpa [headLen] using hoff
      rw [cloneParts, if_neg (by simp; omega)]
  | cons m rest ih =>
      simp only [headLen] at hoff
      have hdrop : (chainBytes (m :: rest)).drop off = m.data.drop off ++ chainBytes rest := by
        rw [chainBytes_cons, List.drop_append_of_le_length hoff]
      rw [hdrop, chainBytes_cons, List.length_append, cloneParts]
      by_cases hfits : len ≤ (m.data.drop off).length
      · have hfits' := hfits
        rw [List.length_drop] at hfits'
        rw [if_pos hfits, if_pos (by omega), List.take_append_of_le_length hfits]
      · have hfits' := hfits
        rw [List.length_drop] at hfits'
        have htake : (m.data.drop off).take len = m.data.drop off :=
          List.take_of_length_le (Nat.le_of_not_le hfits)
        rw [if_neg hfits, ih (by rw [List.length_drop]; omega) (Nat.zero_le _),
          List.length_drop, List.take_append, List.length_drop, htake, List.drop_zero]
        by_cases hend : off + len ≤ m.data.length + (chainBytes rest).length
        · rw [if_pos hend, if_pos (by omega)]
          rfl
        · rw [if_neg hend, if_neg (by omega)]
          rfl

/-- Cloning gives the bytes of the chain from the offset on, when there are enough. -/
theorem dataCloneSeg_spec
    {c : Chain} {off len : Nat}
    (hlen : 0 < len) :
    dataCloneSeg c len off =
      if off + len ≤ (chainBytes c).length then
        some (((chainBytes c).drop off).take len)
      else
        none := by
  rw [dataCloneSeg, if_neg (by omega)]
  rcases Nat.lt_or_ge (chainBytes c).length off with hpast | hin
  · rw [seekOffset_past hpast.le, cloneParts, if_neg (by omega)]
  · have hseek := seekOffset_spec hin
    have hcount := hseek.length_eq
    rw [cloneParts_spec hlen hseek.within, hseek.drop_eq]
    by_cases hfits : off + len ≤ (chainBytes c).length
    · rw [if_pos hfits, if_pos (by omega)]
    · rw [if_neg hfits, if_neg (by omega)]

/-- Moving past a segment that was cloned. -/
theorem advanceSegs_spec
    {c : Chain} {off len : Nat}
    (hoff : off ≤ headLen c)
    (hfits : off + len ≤ (chainBytes c).length) :
    Reaches c (off + len) (advanceSegs c off len).1 (advanceSegs c off len).2.1 := by
  induction c generalizing off len with
  | nil =>
      have hzero : off + len = 0 := by
        simpa using hfits
      exact ⟨⟨[], by simp [advanceSegs]⟩, by simp only [advanceSegs, headLen]; omega⟩
  | cons m rest ih =>
      simp only [headLen] at hoff
      rw [chainBytes_cons, List.length_append] at hfits
      by_cases h : m.data.length < off + len
      · obtain ⟨⟨front, hfront, hlen⟩, hwithin⟩ :=
          @ih 0 (len - (m.data.length - off)) (Nat.zero_le _) (by omega)
        rw [advanceSegs, if_pos h]
        refine ⟨⟨m :: front, ?_, ?_⟩, hwithin⟩
        · rw [List.cons_append, ← hfront]
        · rw [chainBytes_cons, List.length_append]
          omega
      · rw [advanceSegs, if_neg h]
        exact ⟨⟨[], rfl, by simp⟩, by simp only [headLen]; omega⟩

end Segments

section Loop

/-- The sizes of the segments that the loop cuts from `len` bytes when no clone fails. -/
def segSizes (mtu : Nat) (sendOk : Nat → Bool) : Nat → Nat → Nat → List Nat
  | 0, _, _ => []
  | fuel + 1, i, len =>
      if len = 0 then
        []
      else if sendOk i then
        min len mtu :: segSizes mtu sendOk fuel (i + 1) (len - min len mtu)
      else
        []

/-- Adjacent segments of the given sizes, from the first byte of `bytes` on. -/
def segPkts (rcv : TcbRcv) (flags : TcpFlags) : U32 → List UInt8 → List Nat → List TxPkt
  | _, _, [] => []
  | seq, bytes, n :: ns =>
      { seq := seq, ack := rcv.nxt, flags := flags, wnd := rcv.wnd.truncate 16,
        data := bytes.take n } ::
      segPkts rcv flags (seq + BitVec.ofNat 32 n) (bytes.drop n) ns

/-- `SND.NXT` after segments of the given sizes: it follows those that start at it. -/
def followNxt : U32 → U32 → List Nat → U32
  | nxt, _, [] => nxt
  | nxt, seq, n :: ns =>
      followNxt (if seq = nxt then nxt + BitVec.ofNat 32 n else nxt)
        (seq + BitVec.ofNat 32 n) ns

/-- A transition that has sent adjacent segments of the given sizes. -/
def sentSegs (c : Tsm) (flags : TcpFlags) (sseq : U32) (bytes : List UInt8) (ns : List Nat) :
    Tsm :=
  { c with
    tcb := { c.tcb with snd := { c.tcb.snd with nxt := followNxt c.tcb.snd.nxt sseq ns } }
    out := c.out ++ (segPkts c.tcb.rcv flags sseq bytes ns).map .pkt }

theorem sentSegs_nil
    (c : Tsm) (flags : TcpFlags) (sseq : U32) (bytes : List UInt8) :
    sentSegs c flags sseq bytes [] = c := by
  simp [sentSegs, followNxt, segPkts]

/-- Sending one segment and then the others is sending them all. -/
theorem sentSegs_cons
    (c : Tsm) (flags : TcpFlags) (sseq : U32) (bytes : List UInt8) (n : Nat) (ns : List Nat) :
    sentSegs
      (advanceNxt
        (c.emit (.pkt
          { seq := sseq, ack := c.tcb.rcv.nxt, flags := flags,
            wnd := c.tcb.rcv.wnd.truncate 16, data := bytes.take n })) sseq n)
      flags (sseq + BitVec.ofNat 32 n) (bytes.drop n) ns =
    sentSegs c flags sseq bytes (n :: ns) := by
  by_cases h : sseq = c.tcb.snd.nxt
  · simp only [advanceNxt, emit_tcb, if_pos h, sentSegs, followNxt, segPkts, emit_out]
    simp [Tsm.emit]
  · simp only [advanceNxt, emit_tcb, if_neg h, sentSegs, followNxt, segPkts, emit_out]
    simp [Tsm.emit]

/-- The loop sends adjacent segments: all that it may send when the chain is long enough. -/
theorem sendSegmentsLoop_spec
    {env : TsmEnv}
    (hmtu : 0 < env.cfg.mtu)
    (flags : TcpFlags) (fuel i : Nat) (c : Tsm) {segs : Chain} (dataLen : Nat)
    {dataOffset : Nat} (sseq : U32)
    (hoff : dataOffset ≤ headLen segs) :
    ∃ ns,
      (sendSegmentsLoop env flags fuel i c segs dataLen dataOffset sseq).1 =
        sentSegs c flags sseq ((chainBytes segs).drop dataOffset) ns ∧
      ns <+: segSizes env.cfg.mtu env.sendOk fuel i dataLen ∧
      dataOffset + ns.sum ≤ (chainBytes segs).length ∧
      (dataOffset + dataLen ≤ (chainBytes segs).length →
        ns = segSizes env.cfg.mtu env.sendOk fuel i dataLen) := by
  have hhead : headLen segs ≤ (chainBytes segs).length := by
    cases segs <;> simp [headLen]
  induction fuel generalizing i c segs dataLen dataOffset sseq with
  | zero =>
      refine ⟨[], ?_, List.nil_prefix, by simpa using hoff.trans hhead, fun _ => rfl⟩
      rw [sendSegmentsLoop, sentSegs_nil]
  | succ fuel ih =>
      have hstop :
          (dataOffset + dataLen ≤ (chainBytes segs).length →
            segSizes env.cfg.mtu env.sendOk (fuel + 1) i dataLen = []) →
          ∃ ns,
            c = sentSegs c flags sseq ((chainBytes segs).drop dataOffset) ns ∧
            ns <+: segSizes env.cfg.mtu env.sendOk (fuel + 1) i dataLen ∧
            dataOffset + ns.sum ≤ (chainBytes segs).length ∧
            (dataOffset + dataLen ≤ (chainBytes segs).length →
              ns = segSizes env.cfg.mtu env.sendOk (fuel + 1) i dataLen) := by
        intro hall
        refine ⟨[], ?_, List.nil_prefix, by simpa using hoff.trans hhead,
          fun h => (hall h).symm⟩
        rw [sentSegs_nil]
      rw [sendSegmentsLoop]
      by_cases hzero : dataLen = 0
      · rw [if_pos hzero]
        exact hstop fun _ => by rw [segSizes, if_pos hzero]
      have hpos : 0 < min dataLen env.cfg.mtu := by
        omega
      rw [if_neg hzero]
      simp only [tcpDataSendSegment, dataCloneSeg_spec hpos]
      by_cases hfits : dataOffset + min dataLen env.cfg.mtu ≤ (chainBytes segs).length
      · simp only [if_pos hfits]
        by_cases hok : env.sendOk i = true
        · -- one segment goes out, the rest is sent from the position after it
          simp only [hok, if_true]
          have hnext := advanceSegs_spec hoff hfits
          have hcount := hnext.length_eq
          have hnhead : headLen (advanceSegs segs dataOffset (min dataLen env.cfg.mtu)).1 ≤
              (chainBytes (advanceSegs segs dataOffset (min dataLen env.cfg.mtu)).1).length := by
            cases (advanceSegs segs dataOffset (min dataLen env.cfg.mtu)).1 <;> simp [headLen]
          obtain ⟨ns, hrun, hpre, hsum, hall⟩ := ih (i + 1)
            (advanceNxt
              (c.emit (.pkt
                { seq := sseq, ack := c.tcb.rcv.nxt, flags := flags,
                  wnd := c.tcb.rcv.wnd.truncate 16,
                  data := ((chainBytes segs).drop dataOffset).take (min dataLen env.cfg.mtu) }))
              sseq (min dataLen env.cfg.mtu))
            (dataLen - min dataLen env.cfg.mtu)
            (sseq + BitVec.ofNat 32 (min dataLen env.cfg.mtu)) hnext.within hnhead
          refine ⟨min dataLen env.cfg.mtu :: ns, ?_, ?_, ?_, ?_⟩
          · rw [hrun, hnext.drop_eq, ← List.drop_drop]
            exact sentSegs_cons c flags sseq _ _ ns
          · rw [segSizes, if_neg hzero, if_pos hok]
            exact List.prefix_cons_inj _ |>.2 hpre
          · rw [List.sum_cons]
            omega
          · intro hlong
            rw [segSizes, if_neg hzero, if_pos hok, hall (by omega)]
        · simp only [hok, if_false, Bool.false_eq_true]
          exact hstop fun _ => by rw [segSizes, if_neg hzero, if_neg hok]
      · simp only [if_neg hfits]
        exact hstop fun h => absurd (by omega) hfits

theorem followNxt_aligned
    (nxt : U32) (ns : List Nat) :
    followNxt nxt nxt ns = nxt + BitVec.ofNat 32 ns.sum := by
  induction ns generalizing nxt with
  | nil =>
      simp [followNxt]
  | cons n ns ih =>
      rw [followNxt, if_pos rfl, ih, List.sum_cons, BitVec.ofNat_add, BitVec.add_assoc]

/-- `SND.NXT` stays, or moves to the end of what was sent. -/
theorem followNxt_cases
    (nxt seq : U32) (ns : List Nat) :
    followNxt nxt seq ns = nxt ∨ followNxt nxt seq ns = seq + BitVec.ofNat 32 ns.sum := by
  induction ns generalizing seq with
  | nil =>
      exact Or.inl rfl
  | cons n ns ih =>
      by_cases h : seq = nxt
      · right
        rw [h, followNxt_aligned]
      · rw [followNxt, if_neg h, List.sum_cons, BitVec.ofNat_add, ← BitVec.add_assoc]
        exact ih _

end Loop

section Sending

variable {env : TsmEnv} {c : Tsm}

theorem tcpDataSendSegments_nil
    (c : Tsm) (dataLen off : Nat) (sseq : U32) (flags : TcpFlags) :
    (tcpDataSendSegments env c [] dataLen off sseq flags).1 = c := by
  have hclone : ∀ len, dataCloneSeg [] len off = none := by
    intro len
    simp [dataCloneSeg, seekOffset, cloneParts]
  unfold tcpDataSendSegments sendSegmentsLoop
  split
  · rfl
  · simp only [tcpDataSendSegment, hclone]

/-- The offset of the first unsent byte is the number of bytes in flight. -/
theorem tcpDataGetUnsent_eq
    {tcb : Tcb}
    (htotal : tcb.retrans.totalSize ≠ 0) :
    tcpDataGetUnsent tcb = seekOffset tcb.retrans.dataMbufs (flight tcb) := by
  have hoff : tcb.retrans.totalSize - (tcb.retrans.totalSize - (tcb.snd.nxt - tcb.snd.una)) =
      tcb.snd.nxt - tcb.snd.una := by
    abel
  rw [tcpDataGetUnsent, tcpDataGetUnsentSize, if_neg htotal, segDIFF, hoff, flight]

/-- What `tcp_data_send()` does with a chain that it stores. -/
structure DataSent (env : TsmEnv) (c : Tsm) (data : TsmDataArg) (tcb' : Tcb) (ns : List Nat)
    (c' : Tsm) : Prop where
  stored : Stored env.cfg.sockopt.tcpoWinSize.toNat data.tdaMbuf c.tcb tcb'
  result :
    c' = { sentSegs { c with tcb := tcb' } (sendFlags data) tcb'.snd.nxt
            ((queued tcb').drop (flight tcb')) ns with
      dataSent := BitVec.ofNat 32 (chainBytes data.tdaMbuf).length }
  within : ns ≠ [] → flight tcb' + ns.sum ≤ (queued tcb').length

/-- `tcp_data_send()` refuses the data, or stores it and sends slices of what is unsent. -/
theorem tcpDataSend_spec
    {data : TsmDataArg}
    (hmtu : 0 < env.cfg.mtu)
    (h : QueueOk env.cfg.sockopt.tcpoWinSize.toNat c.tcb.retrans)
    (hdata : SendChainOk c.tcb data.tdaMbuf) :
    tcpDataSend env c data = ({ c with dataSent := 0 }).fail .enomem ∨
      ∃ tcb' ns, DataSent env c data tcb' ns (tcpDataSend env c data) := by
  rcases tcpDataStoreSend_ok h hdata with hno | ⟨tcb', hstore, hstored⟩
  · left
    simp only [tcpDataSend, hno, if_true]
  · right
    have hpos := hdata.chain.bytes_pos
    have hpkt : chainPktLen data.tdaMbuf =
        BitVec.ofNat 32 (chainBytes data.tdaMbuf).length := hdata.chain.pktLen
    have hne : BitVec.ofNat 32 (chainBytes data.tdaMbuf).length ≠ 0 := by
      intro h0
      have hnat := congrArg BitVec.toNat h0
      rw [BitVec.toNat_ofNat, Nat.mod_eq_of_lt hdata.size] at hnat
      have hzero : (0 : U32).toNat = 0 := rfl
      omega
    have htotal : tcb'.retrans.totalSize ≠ 0 := by
      intro h0
      have hnat := hstored.queue.total_toNat env.cfg.sockopt.tcpoWinSize.isLt
      have hlen := congrArg List.length hstored.bytes
      rw [List.length_append, queued, ← hnat, h0] at hlen
      have hzero : (0 : U32).toNat = 0 := rfl
      omega
    refine ⟨tcb', ?_⟩
    simp only [tcpDataSend, hstore, hne, if_false, hpkt, if_true]
    split
    · -- too little to be pushed
      exact ⟨[], hstored, by rw [sentSegs_nil], by simp⟩
    · rw [tcpDataGetUnsent_eq htotal]
      rcases Nat.lt_or_ge (queued tcb').length (flight tcb') with hpast | hin
      · refine ⟨[], hstored, ?_, by simp⟩
        rw [seekOffset_past hpast.le, tcpDataSendSegments_nil, sentSegs_nil]
      · have hseek := seekOffset_spec hin
        have hcount := hseek.length_eq
        obtain ⟨ns, hrun, -, hsum, -⟩ :=
          sendSegmentsLoop_spec hmtu (sendFlags data) (tcbSegsPerSend + 1) 0
            { c with tcb := tcb', dataSent := 0 } (sendableSize tcb').toNat tcb'.snd.nxt
            hseek.within
        refine ⟨ns, hstored, ?_, fun _ => ?_⟩
        · rw [tcpDataSendSegments, hrun, hseek.drop_eq]
          rfl
        · have hq : (chainBytes tcb'.retrans.dataMbufs).length = (queued tcb').length := rfl
          omega

/-- The sizes of the segments of a retransmission. -/
def retransSizes (env : TsmEnv) (tcb : Tcb) : List Nat :=
  segSizes env.cfg.mtu env.sendOk (tcbSegsPerSend + 1) 0 (retransSize tcb).toNat

/-- `tcp_data_retrans()` sends slices of the queue from its first byte on. -/
theorem tcpDataRetrans_spec
    {winSize : Nat}
    (env : TsmEnv)
    (hmtu : 0 < env.cfg.mtu)
    (h : QueueOk winSize c.tcb.retrans)
    (hwin : winSize < 2 ^ 32) :
    tcpDataRetrans env c =
        sentSegs c { ack := true } c.tcb.snd.una (queued c.tcb) (retransSizes env c.tcb) ∧
      (retransSizes env c.tcb).sum ≤ (queued c.tcb).length := by
  have htotal := h.total_toNat hwin
  have hsize : (retransSize c.tcb).toNat ≤ (queued c.tcb).length := by
    rw [retransSize, queued]
    split
    · omega
    · rename_i hlt
      rw [BitVec.lt_def] at hlt
      omega
  obtain ⟨ns, hrun, -, hsum, hall⟩ :=
    sendSegmentsLoop_spec hmtu { ack := true } (tcbSegsPerSend + 1) 0 c
      (retransSize c.tcb).toNat c.tcb.snd.una
      (Nat.zero_le (headLen c.tcb.retrans.dataMbufs))
  have hns : ns = retransSizes env c.tcb := hall (by rw [Nat.zero_add]; exact hsize)
  subst hns
  rw [Nat.zero_add] at hsum
  refine ⟨?_, hsum⟩
  unfold tcpDataRetrans
  split
  · rename_i hnil
    have hzero : (retransSize c.tcb).toNat = 0 := by
      have hlen : (queued c.tcb).length = 0 := by
        rw [queued, hnil]
        rfl
      omega
    have hnone : retransSizes env c.tcb = [] := by
      rw [retransSizes, hzero]
      rfl
    rw [hnone, sentSegs_nil]
  · rw [tcpDataSendSegments, hrun, List.drop_zero]
    rfl

end Sending

end RetransmissionQueue
end Warp17
