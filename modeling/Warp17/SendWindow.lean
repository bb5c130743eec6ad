import Warp17.RetryLimits
import Warp17.SegmentLoop

/-!
# New data and the peer's window

`tcp_data_send` takes the window less what is in flight as the room for new data.  The
difference is modulo 2^32: when the peer has moved the right edge of its window back over data
in flight, the room is almost all of the sequence space, and the next send goes beyond the
window.

**Results**
- `tcpDataSend_pkts`: the segments of a send.
- `sentInWindow_of_le`: with the flight within the window nothing goes beyond it.
- `sent_in_window_iff`: in every state that runs reach, a send stays within the window just if
  the flight is within it, or nothing is sent.
-/

namespace Warp17
namespace SendWindow

open GuardedRuns SequenceComparison MbufChains ControlBlock SendQueue RetransmissionQueue
open TcpStateMachine TransitionPaths ConnectionRuns SendInvariants SessionTimers RetryLimits

/--
Every new byte is numbered within the window, and nothing is sent when the flight covers the
window.
-/
structure SentInWindow (tcb : Tcb) (pkts : List TxPkt) : Prop where
  inside :
    ∀ pkt ∈ pkts, ∀ j < pkt.data.length,
      (pkt.seq + BitVec.ofNat 32 j - tcb.snd.una).toNat < tcb.snd.wnd.toNat
  covered : tcb.snd.wnd.toNat ≤ flight tcb → ∀ pkt ∈ pkts, pkt.data = []

/-- The data is too little to be pushed. -/
def Held (cfg : TcpConfig) (tcb : Tcb) (data : TsmDataArg) : Prop :=
  data.tdaPush = false ∧
    BitVec.ofNat 32 (queued tcb ++ chainBytes data.tdaMbuf).length - (tcb.snd.nxt - tcb.snd.una) <
      tcbPshThresh cfg

/--
A send that puts nothing on the wire: the connection is not open, the data is refused or held
back, the first segment fails, or what is in flight is not in the queue.
-/
def NothingSent (env : TsmEnv) (tcb : Tcb) (data : TsmDataArg) : Prop :=
  tcb.state ≠ .established ∨ tcbAvailSend env.cfg tcb < chainPktLen data.tdaMbuf ∨
    Held env.cfg tcb data ∨ env.sendOk 0 = false ∨
      (queued tcb ++ chainBytes data.tdaMbuf).length ≤ flight tcb

section Segments

variable {rcv : TcbRcv} {flags : TcpFlags}

/-- Where the bytes of a segment are. -/
theorem segPkts_range
    {seq : U32} {bytes : List UInt8} {ns : List Nat} {pkt : TxPkt}
    (hfits : ns.sum ≤ bytes.length)
    (hpkt : pkt ∈ segPkts rcv flags seq bytes ns) :
    ∃ k, pkt.seq = seq + BitVec.ofNat 32 k ∧ k + pkt.data.length ≤ ns.sum := by
  induction ns generalizing seq bytes with
  | nil =>
      cases hpkt
  | cons n ns ih =>
      rw [List.sum_cons] at hfits ⊢
      rw [segPkts, List.mem_cons] at hpkt
      rcases hpkt with rfl | hpkt
      · refine ⟨0, (BitVec.add_zero seq).symm, ?_⟩
        rw [List.length_take]
        omega
      · obtain ⟨k, hk, hle⟩ := ih (by rw [List.length_drop]; omega) hpkt
        refine ⟨n + k, ?_, by omega⟩
        rw [hk, BitVec.ofNat_add, BitVec.add_assoc]

/-- The bytes that may be sent, when what is in flight is in the queue. -/
theorem sendableSize_toNat
    {winSize : Nat} {tcb : Tcb}
    (h : QueueOk winSize tcb.retrans)
    (hwin : winSize < 2 ^ 32)
    (hqueue : queued tcb ≠ [])
    (hin : flight tcb ≤ (queued tcb).length) :
    (sendableSize tcb).toNat =
      min ((queued tcb).length - flight tcb) (tcb.snd.wnd - (tcb.snd.nxt - tcb.snd.una)).toNat := by
  have htotal := h.total_toNat hwin
  have hne : tcb.retrans.totalSize ≠ 0 := by
    intro h0
    exact hqueue ((h.total_eq_zero hwin).1 h0)
  have hunsent : (tcpDataGetUnsentSize tcb).toNat = (queued tcb).length - flight tcb := by
    rw [tcpDataGetUnsentSize, if_neg hne, segDIFF, BitVec.toNat_sub_of_le, htotal]
    · rfl
    · rw [BitVec.le_def, htotal]
      exact hin
  by_cases hlt : tcpDataGetUnsentSize tcb < tcb.snd.wnd - (tcb.snd.nxt - tcb.snd.una)
  · have hless := BitVec.lt_def.1 hlt
    rw [sendableSize, segDIFF, segDIFF, if_pos hlt, hunsent, min_eq_left (by omega)]
  · have hmore := mt BitVec.lt_def.2 hlt
    rw [sendableSize, segDIFF, segDIFF, if_neg hlt, min_eq_right (by omega)]

end Segments

section Sending

variable {env : TsmEnv} {c : Tsm} {data : TsmDataArg}

instance (cfg : TcpConfig) (tcb : Tcb) (data : TsmDataArg) : Decidable (Held cfg tcb data) :=
  inferInstanceAs (Decidable (_ ∧ _))

/-- The sizes of the segments of a send. -/
def sentSizes (env : TsmEnv) (tcb : Tcb) (data : TsmDataArg) : List Nat :=
  if tcbAvailSend env.cfg tcb < chainPktLen data.tdaMbuf ∨ Held env.cfg tcb data ∨
      (queued tcb ++ chainBytes data.tdaMbuf).length ≤ flight tcb then []
  else
    segSizes env.cfg.mtu env.sendOk (tcbSegsPerSend + 1) 0
      (min ((queued tcb ++ chainBytes data.tdaMbuf).length - flight tcb)
        (tcb.snd.wnd - (tcb.snd.nxt - tcb.snd.una)).toNat)

/-- The segments are slices of what is queued, from the first byte not in flight on. -/
theorem tcpDataSend_pkts
    (hmtu : 0 < env.cfg.mtu)
    (h : QueueOk env.cfg.sockopt.tcpoWinSize.toNat c.tcb.retrans)
    (hdata : SendChainOk c.tcb data.tdaMbuf) :
    packets (tcpDataSend env c data).out = packets c.out ++
      segPkts c.tcb.rcv (sendFlags data) c.tcb.snd.nxt
        ((queued c.tcb ++ chainBytes data.tdaMbuf).drop (flight c.tcb))
        (sentSizes env c.tcb data) := by
  have hpos := hdata.chain.bytes_pos
  have hpkt : chainPktLen data.tdaMbuf =
      BitVec.ofNat 32 (chainBytes data.tdaMbuf).length := hdata.chain.pktLen
  have hne : BitVec.ofNat 32 (chainBytes data.tdaMbuf).length ≠ 0 := by
    intro h0
    have hnat := congrArg BitVec.toNat h0
    rw [BitVec.toNat_ofNat, Nat.mod_eq_of_lt hdata.size] at hnat
    have hzero : (0 : U32).toNat = 0 := rfl
    omega
  by_cases hrefused : tcbAvailSend env.cfg c.tcb < chainPktLen data.tdaMbuf
  · -- the chain is freed
    have hno : tcpDataStoreSend env.cfg c.tcb data.tdaMbuf = (c.tcb, 0) := by
      rw [tcpDataStoreSend, if_pos hrefused]
    rw [sentSizes, if_pos (Or.inl hrefused), tcpDataSend]
    simp [hno, segPkts, Tsm.fail]
  · rcases tcpDataStoreSend_ok h hdata with hno | ⟨tcb', hstore, hstored⟩
    · -- with room for it the chain is stored
      have hsize := congrArg (fun r => r.1.retrans.totalSize) hno
      rw [tcpDataStoreSend, if_neg hrefused] at hsize
      have hzero : chainPktLen data.tdaMbuf = 0 := by
        have hsum : c.tcb.retrans.totalSize + chainPktLen data.tdaMbuf =
            c.tcb.retrans.totalSize := hsize
        simpa using hsum
      exact absurd (hpkt.symm.trans hzero) hne
    · have hwin := env.cfg.sockopt.tcpoWinSize.isLt
      have hsnd : tcb'.snd = c.tcb.snd := by rw [hstored.others]
      have hrcv : tcb'.rcv = c.tcb.rcv := by rw [hstored.others]
      have hflight : flight tcb' = flight c.tcb := by rw [flight, flight, hsnd]
      have hqueue : queued tcb' ≠ [] := by
        rw [hstored.bytes]
        intro hnil
        rw [List.append_eq_nil_iff] at hnil
        rw [hnil.2] at hpos
        exact absurd hpos (Nat.lt_irrefl 0)
      have htotal : tcb'.retrans.totalSize ≠ 0 := by
        intro h0
        exact hqueue ((hstored.queue.total_eq_zero hwin).1 h0)
      have hunsent : tcpDataGetUnsentSize tcb' =
          BitVec.ofNat 32 (queued c.tcb ++ chainBytes data.tdaMbuf).length -
            (c.tcb.snd.nxt - c.tcb.snd.una) := by
        rw [tcpDataGetUnsentSize, if_neg htotal, segDIFF, hsnd, hstored.queue.total,
          ← hstored.bytes]
        rfl
      have hheld : (!data.tdaPush && decide (tcpDataGetUnsentSize tcb' < tcbPshThresh env.cfg)) =
          decide (Held env.cfg c.tcb data) := by
        rw [Bool.eq_iff_iff, Bool.and_eq_true, decide_eq_true_eq, decide_eq_true_eq, hunsent]
        simp only [Held, Bool.not_eq_true']
      simp only [tcpDataSend, hstore, hne, if_false, hpkt, if_true, hheld]
      by_cases hwait : Held env.cfg c.tcb data
      · rw [sentSizes, if_pos (Or.inr (Or.inl hwait))]
        simp [hwait, segPkts]
      · simp only [hwait, decide_false, Bool.false_eq_true, if_false]
        rw [tcpDataGetUnsent_eq htotal, hflight]
        by_cases hpast : (queued c.tcb ++ chainBytes data.tdaMbuf).length ≤ flight c.tcb
        · rw [sentSizes, if_pos (Or.inr (Or.inr hpast)),
            seekOffset_past (by rw [← hstored.bytes] at hpast; exact hpast),
            tcpDataSendSegments_nil]
          simp [segPkts]
        · have hlen : (chainBytes tcb'.retrans.dataMbufs).length =
              (queued c.tcb ++ chainBytes data.tdaMbuf).length := congrArg List.length hstored.bytes
          have hseek := @seekOffset_spec tcb'.retrans.dataMbufs (flight c.tcb) (by omega)
          have hcount := hseek.length_eq
          have hsize := sendableSize_toNat hstored.queue hwin hqueue
            (by rw [hflight, hstored.bytes]; omega)
          rw [hflight, hstored.bytes, hsnd] at hsize
          obtain ⟨ns, hrun, -, -, hall⟩ :=
            sendSegmentsLoop_spec hmtu (sendFlags data) (tcbSegsPerSend + 1) 0
              { c with tcb := tcb', dataSent := 0 } (sendableSize tcb').toNat tcb'.snd.nxt
              hseek.within
          have hns := hall (by omega)
          rw [sentSizes, if_neg (by tauto), ← hsize, ← hns, tcpDataSendSegments, hrun,
            hseek.drop_eq, ← hstored.bytes, ← hsnd, ← hrcv]
          simp only [sentSegs, packets_append, packets_map_pkt]
          rfl

theorem sentSizes_sum_le
    {tcb : Tcb} :
    (sentSizes env tcb data).sum ≤
        ((queued tcb ++ chainBytes data.tdaMbuf).drop (flight tcb)).length ∧
      (sentSizes env tcb data).sum ≤ (tcb.snd.wnd - (tcb.snd.nxt - tcb.snd.una)).toNat := by
  rw [sentSizes]
  split
  · exact ⟨Nat.zero_le _, Nat.zero_le _⟩
  · have hsum := @segSizes_sum_le env.cfg.mtu env.sendOk (tcbSegsPerSend + 1) 0
      (min ((queued tcb ++ chainBytes data.tdaMbuf).length - flight tcb)
        (tcb.snd.wnd - (tcb.snd.nxt - tcb.snd.una)).toNat)
    rw [List.length_drop]
    omega

/-- The room is the window less the flight, as long as that is not negative. -/
theorem room_toNat
    {tcb : Tcb}
    (hle : flight tcb ≤ tcb.snd.wnd.toNat) :
    (tcb.snd.wnd - (tcb.snd.nxt - tcb.snd.una)).toNat = tcb.snd.wnd.toNat - flight tcb := by
  rw [BitVec.toNat_sub_of_le (BitVec.le_def.2 hle), flight]

/-- With the flight within the window the new bytes are within it too. -/
theorem sentInWindow_of_le
    {tcb : Tcb} (rcv : TcbRcv) (flags : TcpFlags)
    (hle : flight tcb ≤ tcb.snd.wnd.toNat) :
    SentInWindow tcb
      (segPkts rcv flags tcb.snd.nxt
        ((queued tcb ++ chainBytes data.tdaMbuf).drop (flight tcb)) (sentSizes env tcb data)) := by
  obtain ⟨hfits, hroom⟩ := @sentSizes_sum_le env data tcb
  rw [room_toNat hle] at hroom
  have hsmall := tcb.snd.wnd.isLt
  have hinside : ∀ pkt ∈ segPkts rcv flags tcb.snd.nxt
      ((queued tcb ++ chainBytes data.tdaMbuf).drop (flight tcb)) (sentSizes env tcb data),
      ∀ j < pkt.data.length,
        (pkt.seq + BitVec.ofNat 32 j - tcb.snd.una).toNat < tcb.snd.wnd.toNat := by
    intro pkt hpkt j hj
    obtain ⟨k, hk, hend⟩ := segPkts_range hfits hpkt
    have hnumber : pkt.seq + BitVec.ofNat 32 j - tcb.snd.una =
        BitVec.ofNat 32 (flight tcb + (k + j)) := by
      rw [BitVec.ofNat_add, BitVec.ofNat_add, flight, BitVec.ofNat_toNat, BitVec.setWidth_eq, hk]
      abel
    rw [hnumber, BitVec.toNat_ofNat, Nat.mod_eq_of_lt (by omega)]
    omega
  refine ⟨hinside, ?_⟩
  intro hcovered pkt hpkt
  obtain ⟨k, -, hend⟩ := segPkts_range hfits hpkt
  rw [← List.length_eq_zero_iff]
  omega

/-- With more in flight than the window a byte that is sent is outside it. -/
theorem flight_le_of_sent
    {tcb : Tcb} {rcv : TcbRcv} {flags : TcpFlags}
    (hmtu : 0 < env.cfg.mtu)
    (hestab : tcb.state = .established)
    (hsome : ¬ NothingSent env tcb data)
    (h : SentInWindow tcb
      (segPkts rcv flags tcb.snd.nxt
        ((queued tcb ++ chainBytes data.tdaMbuf).drop (flight tcb)) (sentSizes env tcb data))) :
    flight tcb ≤ tcb.snd.wnd.toNat := by
  by_contra hless
  have hstate : ¬ tcb.state ≠ .established := fun hne => hne hestab
  simp only [NothingSent, hstate, false_or, not_or] at hsome
  obtain ⟨hroom, hheld, hok, hin⟩ := hsome
  rw [Bool.not_eq_false] at hok
  have hwindow : (tcb.snd.wnd - (tcb.snd.nxt - tcb.snd.una)).toNat ≠ 0 := by
    intro h0
    have hzero : tcb.snd.wnd - (tcb.snd.nxt - tcb.snd.una) = 0 := BitVec.eq_of_toNat_eq h0
    rw [sub_eq_zero] at hzero
    rw [flight, ← hzero] at hless
    exact hless le_rfl
  have hsizes : sentSizes env tcb data =
      segSizes env.cfg.mtu env.sendOk (tcbSegsPerSend + 1) 0
        (min ((queued tcb ++ chainBytes data.tdaMbuf).length - flight tcb)
          (tcb.snd.wnd - (tcb.snd.nxt - tcb.snd.una)).toNat) := by
    rw [sentSizes, if_neg]
    rintro (hrefused | hwait | hpast)
    · exact hroom hrefused
    · exact hheld hwait
    · exact hin hpast
  rw [hsizes, segSizes, if_neg (by omega), if_pos hok, segPkts] at h
  -- the first byte of the first segment
  have hfirst := h.inside _ (List.mem_cons_self ..) 0
    (by
      rw [List.length_take, List.length_drop]
      omega)
  rw [BitVec.add_zero] at hfirst
  exact hless hfirst.le

end Sending

section Runs

variable {cfg : TcpConfig}

theorem packets_notifyWinUnavail
    (full : Bool) (c : Tsm) :
    packets (notifyWinUnavail full c).out = packets c.out := by
  rw [notifyWinUnavail]
  split
  · simp [packets]
  · rfl

/-- The packets of a send are those of `tcp_data_send()`, in the one state that allows it. -/
theorem packets_send
    {k : Slack} {tcb : Tcb} {i : ConnInput} {data : TsmDataArg}
    (hcfg : ConfigOk cfg)
    (hinv : SendInv cfg k tcb)
    (hsend : i.event = .send data)
    (hlegal : ConnLegal tcb i) :
    packets (connStep cfg tcb i).out =
      if tcb.state = .established then
        segPkts tcb.rcv (sendFlags data) tcb.snd.nxt
          ((queued tcb ++ chainBytes data.tdaMbuf).drop (flight tcb))
          (sentSizes (i.env cfg) tcb data)
      else [] := by
  simp only [ConnLegal, hsend] at hlegal
  obtain ⟨hlive, hdata⟩ := hlegal
  obtain ⟨hinit, hwait, hclosed⟩ := hinv.resting hlive
  have hpkts := @tcpDataSend_pkts (i.env cfg) (Tsm.start tcb) data hcfg.mtu
    (hinv.bound hlive).queue hdata
  simp only [connStep, hsend, tsmSend]
  cases hstate : tcb.state with
  | established =>
      simp only [Tsm.start, hstate, tsmSendData, if_true] at hpkts ⊢
      rw [packets_notifyWinUnavail, onTcb_out, hpkts]
      rfl
  | closeWait =>
      exact absurd hstate hwait
  | init | listen | synSent | synRecv | finWaitI | finWaitII | lastAck | closing | timeWait
  | closed =>
      simp [Tsm.start, hstate, Tsm.fail]

/--
New data stays within the peer's window, whatever has happened before, just if the flight is
within the window when it is sent, or nothing is sent.
-/
theorem sent_in_window_iff
    (cfg : TcpConfig)
    (hcfg : ConfigOk cfg)
    (is : List ConnInput)
    (hrun : Guarded (tcbStep cfg) ConnLegal blankTcb is)
    (i : ConnInput) (data : TsmDataArg)
    (hsend : i.event = .send data)
    (hlegal : ConnLegal (run (tcbStep cfg) blankTcb is) i) :
    SentInWindow (run (tcbStep cfg) blankTcb is)
        (packets (connStep cfg (run (tcbStep cfg) blankTcb is) i).out) ↔
      flight (run (tcbStep cfg) blankTcb is) ≤
          (run (tcbStep cfg) blankTcb is).snd.wnd.toNat ∨
        NothingSent (i.env cfg) (run (tcbStep cfg) blankTcb is) data := by
  have hinv := sendInv_run hcfg hrun
  generalize run (tcbStep cfg) blankTcb is = tcb at hinv hlegal
  rw [packets_send hcfg hinv hsend hlegal]
  have hnone : ∀ pkts : List TxPkt, pkts = [] → SentInWindow tcb pkts := by
    rintro pkts rfl
    constructor
    · intro pkt hpkt
      cases hpkt
    · intro _ pkt hpkt
      cases hpkt
  by_cases hestab : tcb.state = .established
  · rw [if_pos hestab]
    constructor
    · intro h
      by_cases hnothing : NothingSent (i.env cfg) tcb data
      · exact .inr hnothing
      · exact .inl (flight_le_of_sent hcfg.mtu hestab hnothing h)
    · rintro (hle | hnothing)
      · exact sentInWindow_of_le _ _ hle
      · refine hnone _ ?_
        have hsizes : sentSizes (i.env cfg) tcb data = [] := by
          rcases hnothing with hstate | hrefused | hheld | hfail | hpast
          · exact absurd hestab hstate
          · rw [sentSizes, if_pos (.inl hrefused)]
          · rw [sentSizes, if_pos (.inr (.inl hheld))]
          · rw [sentSizes]
            split
            · rfl
            · rw [segSizes]
              split
              · rfl
              · rw [if_neg (by rw [hfail]; decide)]
          · rw [sentSizes, if_pos (.inr (.inr hpast))]
        rw [hsizes]
        rfl
  · rw [if_neg hestab]
    exact iff_of_true (hnone _ rfl) (.inr (.inl hestab))

/-- Four bytes are in flight when the peer shrinks its window to two. -/
def windowShrunk : List ConnInput :=
  [.plain (.open true),
   .plain (.segment (plainPcb 100 1 { syn := true, ack := true } [])),
   .plain (plainSend 7 [1, 2, 3, 4]),
   .plain (.segment { plainPcb 101 1 { ack := true } [] with rxWin := 2 })]

/-- The next byte is sent, with number 5 where the window ends at 3. -/
theorem sent_beyond_window :
    Guarded (tcbStep defaultConfig) ConnLegal blankTcb windowShrunk ∧
    ConnLegal (run (tcbStep defaultConfig) blankTcb windowShrunk) (.plain (plainSend 8 [5])) ∧
    ¬ SentInWindow (run (tcbStep defaultConfig) blankTcb windowShrunk)
      (packets (connStep defaultConfig (run (tcbStep defaultConfig) blankTcb windowShrunk)
        (.plain (plainSend 8 [5]))).out) := by
  refine ⟨by decide, by decide, ?_⟩
  intro h
  have hcovered : ∀ pkt ∈ packets (connStep defaultConfig
      (run (tcbStep defaultConfig) blankTcb windowShrunk) (.plain (plainSend 8 [5]))).out,
      pkt.data = [] := h.covered (by decide)
  exact absurd hcovered (by decide)

/-- Before the window shrinks the four bytes are within it. -/
theorem sent_in_window_iff_open :
    SentInWindow (run (tcbStep defaultConfig) blankTcb (windowShrunk.take 2))
      (packets (connStep defaultConfig
        (run (tcbStep defaultConfig) blankTcb (windowShrunk.take 2))
        (.plain (plainSend 7 [1, 2, 3, 4]))).out) :=
  (sent_in_window_iff defaultConfig defaultConfig_ok (windowShrunk.take 2) (by decide)
    (.plain (plainSend 7 [1, 2, 3, 4])) _ rfl (by decide)).2 (.inl (by decide))

end Runs

end SendWindow
end Warp17
