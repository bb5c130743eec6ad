import Warp17.ControlBlock
import Warp17.GuardedRuns
import Warp17.TestCaseConfig

/-!
# The RAW application

Requests and responses of a fixed size (src/src/appl/tpg_test_raw_app.c).  A session counts the
bytes that remain of the message it is sending or receiving, and a server is a client with the
two sizes swapped.

A delivered chain is described by its length, the time of its arrival and the transmit
timestamp it begins with, if the magic of a latency header is there.  The statistics are shared
by the sessions of a test case; the counters have 64 bits and are natural numbers here.

**Results**
- `Receiving.deliver`, `Receiving.deliver_over`: one delivery to an endpoint that only receives,
  within a message and past its end.
- `received_count`: the messages counted when no delivery goes past the end of a message.
- `received_count_iff`: only then is the count right however the session goes on.
-/

namespace Warp17
namespace RawApplication

open ControlBlock GuardedRuns TestCaseConfig

/-- `raw_state_t` -/
inductive RawState
  | sending
  | receiving
deriving DecidableEq, Repr

/-- `raw_app_t`; the sizes and the remaining count have 16 bits. -/
structure RawApp where
  raReqSize : Nat
  raRespSize : Nat
  raRemainingCount : Nat
  raRxTstampSize : Nat
  raState : RawState
deriving DecidableEq, Repr

/-- `tpg_raw_stats_t` without the counters of the timestamps. -/
structure RawStats where
  rstsReqCnt : Nat
  rstsRespCnt : Nat
deriving DecidableEq, Repr

/-- What the delivery callback is given. -/
structure RxData where
  pktLen : Nat
  rxTstamp : Nat
  txTstamp : Option Nat
deriving DecidableEq, Repr

/-- What a callback leaves: the session, the statistics, its result and the notifications. -/
structure RawOutcome (α : Type) where
  raw : RawApp
  stats : RawStats
  result : α
  notifs : List TestNotif
deriving DecidableEq, Repr

/-- `sizeof(raw_latency_data_t)` -/
def rawLatencySize : Nat :=
  rawLatencyDataSize

def rawGotoState (raw : RawApp) (state : RawState) (remaining : Nat) : RawApp :=
  { raw with
    raRemainingCount := remaining
    raState := state }

/-- A session without receive timestamps keeps what it had in `ra_rx_tstamp_size`. -/
def rawConnInit (raw : RawApp) (rxTstamp : Bool) (reqLen respLen : Nat) : RawApp :=
  { raw with
    raRxTstampSize := if rxTstamp then rawLatencySize else raw.raRxTstampSize
    raReqSize := reqLen % 2 ^ 16
    raRespSize := respLen % 2 ^ 16 }

def rawClientInit (raw : RawApp) (appRawClient : RawClient) : RawApp :=
  rawConnInit raw appRawClient.rcRxTstamp.bool appRawClient.rcReqPlen appRawClient.rcRespPlen

/-- The request of a server is its response. -/
def rawServerInit (raw : RawApp) (appRawServer : RawServer) : RawApp :=
  rawConnInit raw appRawServer.rsRxTstamp.bool appRawServer.rsRespPlen appRawServer.rsReqPlen

/-- A client without requests stays in the sending state. -/
def rawClientConnUp (raw : RawApp) : RawApp × List TestNotif :=
  let raw := rawGotoState raw .sending raw.raReqSize
  if raw.raReqSize = 0 then (raw, [])
  else (raw, [.appSendStart])

def rawServerConnUp (raw : RawApp) : RawApp × List TestNotif :=
  (rawGotoState raw .receiving raw.raRespSize, [])

/-- What `raw_deliver_data` leaves: the bytes it takes and the calls of `test_update_latency`. -/
structure RawDelivered where
  raw : RawApp
  delivered : Nat
  latencies : List (Nat × Nat)
deriving DecidableEq, Repr

/-- The delivery is the beginning of a message that should carry a timestamp. -/
def RawApp.wantsTstamp (raw : RawApp) : Bool :=
  raw.raRxTstampSize != 0 && raw.raRemainingCount == raw.raRespSize

/-- The length is clipped, but what is left of the chain is reported as delivered too. -/
def rawDeliverData (raw : RawApp) (rxData : RxData) : RawDelivered :=
  if raw.raState ≠ .receiving then ⟨raw, rxData.pktLen, []⟩
  else
    let pktLen := min rxData.pktLen raw.raRemainingCount
    if raw.wantsTstamp && decide (pktLen < raw.raRxTstampSize) then ⟨raw, 0, []⟩
    else
      { raw := { raw with raRemainingCount := raw.raRemainingCount - pktLen }
        delivered := rxData.pktLen
        latencies :=
          if raw.wantsTstamp then rxData.txTstamp.toList.map fun tx => (tx, rxData.rxTstamp)
          else [] }

/-- `raw_client_deliver_data` and `raw_server_deliver_data`, which differ in the counter. -/
def rawDeliver (count : RawStats → RawStats) (raw : RawApp) (stats : RawStats) (rxData : RxData) :
    RawOutcome Nat :=
  let out := rawDeliverData raw rxData
  if out.raw.raRemainingCount = 0 ∧ out.raw.raRespSize ≠ 0 then
    if out.raw.raReqSize ≠ 0 then
      ⟨rawGotoState out.raw .sending out.raw.raReqSize, count stats, out.delivered,
        [.appSendStart]⟩
    else
      ⟨rawGotoState out.raw .receiving out.raw.raRespSize, count stats, out.delivered, []⟩
  else ⟨out.raw, stats, out.delivered, []⟩

def RawStats.incReq (stats : RawStats) : RawStats :=
  { stats with rstsReqCnt := stats.rstsReqCnt + 1 }

def RawStats.incResp (stats : RawStats) : RawStats :=
  { stats with rstsRespCnt := stats.rstsRespCnt + 1 }

def rawClientDeliverData (raw : RawApp) (stats : RawStats) (rxData : RxData) : RawOutcome Nat :=
  rawDeliver RawStats.incResp raw stats rxData

def rawServerDeliverData (raw : RawApp) (stats : RawStats) (rxData : RxData) : RawOutcome Nat :=
  rawDeliver RawStats.incReq raw stats rxData

/-- The length of the chain that `raw_send_data` builds; a timestamp does not change it. -/
def rawSendData (raw : RawApp) (maxTxSize : Nat) : Nat :=
  min raw.raRemainingCount maxTxSize

/-- The subtraction is in `uint16_t`. -/
def rawDataSent (raw : RawApp) (bytesSent : Nat) : RawApp :=
  { raw with
    raRemainingCount := (raw.raRemainingCount + (2 ^ 16 - bytesSent % 2 ^ 16)) % 2 ^ 16 }

def rawClientDataSent (raw : RawApp) (stats : RawStats) (bytesSent : Nat) : RawOutcome Bool :=
  let raw := rawDataSent raw bytesSent
  if raw.raRemainingCount = 0 then
    if raw.raRespSize ≠ 0 then
      ⟨rawGotoState raw .receiving raw.raRespSize, stats.incReq, true, [.appSendStop]⟩
    else
      ⟨rawGotoState raw .sending raw.raReqSize, stats.incReq, true, [.appSendStop, .appSendStart]⟩
  else ⟨raw, stats, false, []⟩

def rawServerDataSent (raw : RawApp) (stats : RawStats) (bytesSent : Nat) : RawOutcome Bool :=
  let raw := rawDataSent raw bytesSent
  if raw.raRemainingCount = 0 then
    ⟨rawGotoState raw .receiving raw.raRespSize, stats.incResp, true, [.appSendStop]⟩
  else ⟨raw, stats, false, []⟩

/-! ## Endpoints that only receive -/

/-- A client whose requests are empty, or a server whose responses are. -/
inductive Receiver
  | client (appRawClient : RawClient) (req : appRawClient.rcReqPlen = 0)
  | server (appRawServer : RawServer) (resp : appRawServer.rsRespPlen = 0)

/-- The size of the messages that it receives. -/
def Receiver.size : Receiver → Nat
  | client appRawClient _ => appRawClient.rcRespPlen
  | server appRawServer _ => appRawServer.rsReqPlen

def Receiver.rxTstamp : Receiver → Bool
  | client appRawClient _ => appRawClient.rcRxTstamp.bool
  | server appRawServer _ => appRawServer.rsRxTstamp.bool

/-- The session when the connection is up; `raw` is what its control block has been cleared to. -/
def Receiver.up (raw : RawApp) : Receiver → RawApp
  | client appRawClient _ => (rawClientConnUp (rawClientInit raw appRawClient)).1
  | server appRawServer _ => (rawServerConnUp (rawServerInit raw appRawServer)).1

def Receiver.count : Receiver → RawStats → RawStats
  | client _ _ => RawStats.incResp
  | server _ _ => RawStats.incReq

/-- The counter of the messages received. -/
def Receiver.counted : Receiver → RawStats → Nat
  | client _ _ => RawStats.rstsRespCnt
  | server _ _ => RawStats.rstsReqCnt

def Receiver.deliver : Receiver → RawApp × RawStats → RxData → RawApp × RawStats
  | client _ _, (raw, stats), rxData =>
      let out := rawClientDeliverData raw stats rxData
      (out.raw, out.stats)
  | server _ _, (raw, stats), rxData =>
      let out := rawServerDeliverData raw stats rxData
      (out.raw, out.stats)

/-- The session after some deliveries. -/
def Receiver.received (r : Receiver) (raw : RawApp) (stats : RawStats) (deliveries : List RxData) :
    RawApp × RawStats :=
  run r.deliver (r.up raw, stats) deliveries

/-- Each delivery ends within the message it begins in; `before` bytes have come already. -/
def WithinMessages (size before : Nat) (lengths : List Nat) : Prop :=
  ∀ k, (hk : k < lengths.length) →
    (before + (lengths.take k).sum) % size + lengths[k] ≤ size

/-- The first delivery to a client is counted as a message, whatever it is. -/
def Receiver.Fits : Receiver → List Nat → Prop
  | client appRawClient _, lengths =>
      (∀ d ∈ lengths.head?, d = appRawClient.rcRespPlen) ∧
        WithinMessages appRawClient.rcRespPlen 0 lengths
  | server appRawServer _, lengths =>
      WithinMessages appRawServer.rsReqPlen 0 lengths

/-- A delivery of a single byte. -/
def oneByte : RxData :=
  ⟨1, 0, none⟩

section Receiving

variable {r : Receiver} {total start : Nat}

/-- The session has taken `total` bytes as messages, after `start` messages counted before. -/
structure Receiving (r : Receiver) (total start : Nat) (s : RawApp × RawStats) : Prop where
  state : s.1.raState = .receiving
  reqSize : s.1.raReqSize = 0
  respSize : s.1.raRespSize = r.size
  tstamp : s.1.raRxTstampSize = 0
  remaining : s.1.raRemainingCount = r.size - total % r.size
  counted : r.counted s.2 = start + total / r.size

theorem Receiver.deliver_eq
    (r : Receiver) (s : RawApp × RawStats) (rxData : RxData) :
    r.deliver s rxData =
      ((rawDeliver r.count s.1 s.2 rxData).raw, (rawDeliver r.count s.1 s.2 rxData).stats) := by
  cases r with
  | client _ _ => rfl
  | server _ _ => rfl

theorem Receiver.counted_count
    (r : Receiver) (stats : RawStats) :
    r.counted (r.count stats) = r.counted stats + 1 := by
  cases r with
  | client _ _ => rfl
  | server _ _ => rfl

theorem withinMessages_nil
    {size before : Nat} :
    WithinMessages size before [] := by
  intro k hk
  exact absurd hk (Nat.not_lt_zero k)

theorem WithinMessages.cons_iff
    {size before d : Nat} {lengths : List Nat} :
    WithinMessages size before (d :: lengths) ↔
      before % size + d ≤ size ∧ WithinMessages size (before + d) lengths := by
  constructor
  · intro h
    refine ⟨h 0 (Nat.succ_pos _), ?_⟩
    intro k hk
    have hnext := h (k + 1) (Nat.succ_lt_succ hk)
    rwa [List.take_succ_cons, List.sum_cons, List.getElem_cons_succ, ← Nat.add_assoc] at hnext
  · rintro ⟨hfirst, hrest⟩ k hk
    cases k with
    | zero =>
        exact hfirst
    | succ k =>
        have hnext := hrest k (Nat.lt_of_succ_lt_succ hk)
        rwa [List.take_succ_cons, List.sum_cons, List.getElem_cons_succ, ← Nat.add_assoc]

theorem WithinMessages.append_iff
    {size before : Nat} {lengths lengths' : List Nat} :
    WithinMessages size before (lengths ++ lengths') ↔
      WithinMessages size before lengths ∧ WithinMessages size (before + lengths.sum) lengths' := by
  induction lengths generalizing before with
  | nil =>
      constructor
      · intro h
        exact ⟨withinMessages_nil, h⟩
      · intro h
        exact h.2
  | cons d lengths ih =>
      rw [List.cons_append, WithinMessages.cons_iff, WithinMessages.cons_iff, ih, List.sum_cons,
        and_assoc, Nat.add_assoc]

/-- What a delivery to an endpoint in the middle of a message does. -/
theorem Receiving.deliver_cases
    {s : RawApp × RawStats}
    (h : Receiving r total start s)
    (rxData : RxData) :
    r.deliver s rxData =
      if s.1.raRemainingCount ≤ rxData.pktLen ∧ r.size ≠ 0 then
        ({ s.1 with raRemainingCount := r.size }, r.count s.2)
      else ({ s.1 with raRemainingCount := s.1.raRemainingCount - rxData.pktLen }, s.2) := by
  obtain ⟨⟨reqSize, respSize, remaining, tstamp, state⟩, stats⟩ := s
  obtain ⟨hstate, hreq, hresp, htstamp, -, -⟩ := h
  dsimp only at hstate hreq hresp htstamp ⊢
  subst hstate hreq hresp htstamp
  have hdata : rawDeliverData ⟨0, r.size, remaining, 0, .receiving⟩ rxData =
      ⟨⟨0, r.size, remaining - min rxData.pktLen remaining, 0, .receiving⟩, rxData.pktLen, []⟩ := by
    simp [rawDeliverData, RawApp.wantsTstamp]
  rw [Receiver.deliver_eq, rawDeliver, hdata]
  by_cases hover : remaining ≤ rxData.pktLen
  · rw [min_eq_right hover, Nat.sub_self]
    by_cases hsize : r.size = 0
    · simp [hsize, Nat.sub_eq_zero_of_le hover]
    · simp [hsize, hover, rawGotoState]
  · have hleft : remaining - rxData.pktLen ≠ 0 := by omega
    rw [min_eq_left (Nat.le_of_not_le hover)]
    simp [hleft, hover]

/-- A delivery that ends within the message. -/
theorem Receiving.deliver
    {s : RawApp × RawStats} {rxData : RxData}
    (h : Receiving r total start s)
    (hsize : 0 < r.size)
    (hfits : total % r.size + rxData.pktLen ≤ r.size) :
    Receiving r (total + rxData.pktLen) start (r.deliver s rxData) := by
  have hdiv := Nat.div_add_mod total r.size
  have hmod := Nat.mod_lt total hsize
  rw [h.deliver_cases, h.remaining]
  by_cases hend : total % r.size + rxData.pktLen = r.size
  · have htotal : total + rxData.pktLen = r.size * (total / r.size + 1) := by
      rw [Nat.mul_add_one]
      omega
    rw [if_pos ⟨by omega, hsize.ne'⟩]
    constructor
    · exact h.state
    · exact h.reqSize
    · exact h.respSize
    · exact h.tstamp
    · rw [htotal, Nat.mul_mod_right, Nat.sub_zero]
    · rw [htotal, Nat.mul_div_cancel_left _ hsize, Receiver.counted_count, h.counted,
        Nat.add_assoc]
  · have hless : total % r.size + rxData.pktLen < r.size := by omega
    have htotal : total + rxData.pktLen =
        total % r.size + rxData.pktLen + r.size * (total / r.size) := by
      omega
    rw [if_neg (by omega)]
    constructor
    · exact h.state
    · exact h.reqSize
    · exact h.respSize
    · exact h.tstamp
    · rw [htotal, Nat.add_mul_mod_self_left, Nat.mod_eq_of_lt hless]
      dsimp only
      omega
    · rw [htotal, Nat.add_mul_div_left _ _ hsize, Nat.div_eq_of_lt hless, Nat.zero_add]
      exact h.counted

/-- A delivery that goes past the end of the message counts one and loses the rest. -/
theorem Receiving.deliver_over
    {s : RawApp × RawStats} {rxData : RxData}
    (h : Receiving r total start s)
    (hsize : 0 < r.size)
    (hover : r.size < total % r.size + rxData.pktLen) :
    Receiving r (r.size * (total / r.size + 1)) start (r.deliver s rxData) := by
  rw [h.deliver_cases, h.remaining, if_pos ⟨by omega, hsize.ne'⟩]
  constructor
  · exact h.state
  · exact h.reqSize
  · exact h.respSize
  · exact h.tstamp
  · rw [Nat.mul_mod_right, Nat.sub_zero]
  · rw [Nat.mul_div_cancel_left _ hsize, Receiver.counted_count, h.counted, Nat.add_assoc]

/-- By induction on the deliveries. -/
theorem Receiving.run
    {s : RawApp × RawStats} {deliveries : List RxData}
    (h : Receiving r total start s)
    (hsize : 0 < r.size)
    (hfits : WithinMessages r.size total (deliveries.map RxData.pktLen)) :
    Receiving r (total + (deliveries.map RxData.pktLen).sum) start
      (run r.deliver s deliveries) := by
  induction deliveries generalizing s total with
  | nil =>
      exact h
  | cons rxData deliveries ih =>
      rw [List.map_cons, WithinMessages.cons_iff] at hfits
      rw [List.map_cons, List.sum_cons, ← Nat.add_assoc, run_cons]
      exact ih (h.deliver hsize hfits.1) hfits.2

theorem withinMessages_ones
    {size : Nat} (before n : Nat)
    (hsize : 0 < size) :
    WithinMessages size before ((List.replicate n oneByte).map RxData.pktLen) := by
  intro k hk
  have hmod :=
    Nat.mod_lt (before + (((List.replicate n oneByte).map RxData.pktLen).take k).sum) hsize
  rw [List.getElem_map, List.getElem_replicate]
  exact hmod

theorem sum_ones
    (n : Nat) :
    ((List.replicate n oneByte).map RxData.pktLen).sum = n := by
  rw [List.map_replicate, List.sum_replicate]
  exact Nat.mul_one n

/-- The session goes on byte by byte. -/
theorem Receiving.ones
    {s : RawApp × RawStats}
    (h : Receiving r total start s)
    (hsize : 0 < r.size)
    (n : Nat) :
    r.counted (GuardedRuns.run r.deliver s (List.replicate n oneByte)).2 =
      start + (total + n) / r.size := by
  have hrun := h.run hsize (withinMessages_ones total n hsize)
  rw [hrun.counted, sum_ones]

/-- Once bytes are lost, the count is wrong when the next message ends. -/
theorem Receiving.lost
    {s : RawApp × RawStats} {total' : Nat}
    (h : Receiving r (r.size * total) start s)
    (hsize : 0 < r.size)
    (hlost : r.size * total < total') :
    ∃ n, r.counted (GuardedRuns.run r.deliver s (List.replicate n oneByte)).2 ≠
      start + (total' + n) / r.size := by
  refine ⟨r.size - 1, ?_⟩
  rw [h.ones hsize, Nat.mul_add_div hsize, Nat.div_eq_of_lt (by omega)]
  have hmore : (r.size * (total + 1)) / r.size ≤ (total' + (r.size - 1)) / r.size := by
    apply Nat.div_le_div_right
    rw [Nat.mul_add_one]
    omega
  rw [Nat.mul_div_cancel_left _ hsize] at hmore
  omega

/-- The count is right all the way only if the deliveries end within messages. -/
theorem Receiving.within
    {s : RawApp × RawStats} {deliveries : List RxData}
    (h : Receiving r total start s)
    (hsize : 0 < r.size)
    (hcount : ∀ k n, 0 < k → k ≤ deliveries.length →
      r.counted (GuardedRuns.run r.deliver s
          (deliveries.take k ++ List.replicate n oneByte)).2 =
        start + (total + ((deliveries.take k).map RxData.pktLen).sum + n) / r.size) :
    WithinMessages r.size total (deliveries.map RxData.pktLen) := by
  induction deliveries generalizing s total with
  | nil =>
      exact withinMessages_nil
  | cons rxData deliveries ih =>
      have hfirst : total % r.size + rxData.pktLen ≤ r.size := by
        by_contra hover
        have hdiv := Nat.div_add_mod total r.size
        obtain ⟨n, hn⟩ := (h.deliver_over hsize (Nat.lt_of_not_le hover)).lost hsize
          (show r.size * (total / r.size + 1) < total + rxData.pktLen by
            rw [Nat.mul_add_one]
            omega)
        refine hn ?_
        have hwrong := hcount 1 n Nat.one_pos (Nat.succ_pos _)
        simpa using hwrong
      rw [List.map_cons, WithinMessages.cons_iff]
      refine ⟨hfirst, ih (h.deliver hsize hfirst) ?_⟩
      intro k n _ hk
      have hnext := hcount (k + 1) n (Nat.succ_pos k) (Nat.succ_le_succ hk)
      rwa [List.take_succ_cons, List.cons_append, run_cons, List.map_cons, List.sum_cons,
        ← Nat.add_assoc] at hnext

end Receiving

/-! ## Whole sessions -/

section Sessions

variable {r : Receiver} {raw : RawApp} {stats : RawStats}

/-- A server is ready for its first message. -/
theorem up_server
    {appRawServer : RawServer} {resp : appRawServer.rsRespPlen = 0}
    (htstamp : appRawServer.rsRxTstamp.bool = false)
    (hraw : raw.raRxTstampSize = 0)
    (hmax : appRawServer.rsReqPlen < 2 ^ 16) :
    Receiving (.server appRawServer resp) 0 (Receiver.counted (.server appRawServer resp) stats)
      ((Receiver.server appRawServer resp).up raw, stats) := by
  have hsize : appRawServer.rsReqPlen % 2 ^ 16 = appRawServer.rsReqPlen := Nat.mod_eq_of_lt hmax
  have hup : (Receiver.server appRawServer resp).up raw =
      ⟨0, appRawServer.rsReqPlen, appRawServer.rsReqPlen, 0, .receiving⟩ := by
    simp only [Receiver.up, rawServerConnUp, rawServerInit, rawConnInit, rawGotoState, resp, hsize,
      htstamp, hraw, Nat.zero_mod, Bool.false_eq_true, if_false]
  rw [hup]
  constructor
  · rfl
  · rfl
  · rfl
  · rfl
  · rfl
  · rw [Nat.zero_div, Nat.add_zero]

/-- The first delivery brings a client to the receiving state, with one message counted. -/
theorem up_client
    {appRawClient : RawClient} {req : appRawClient.rcReqPlen = 0}
    (htstamp : appRawClient.rcRxTstamp.bool = false)
    (hraw : raw.raRxTstampSize = 0)
    (hpos : 0 < appRawClient.rcRespPlen)
    (hmax : appRawClient.rcRespPlen < 2 ^ 16)
    (rxData : RxData) :
    Receiving (.client appRawClient req) (appRawClient.rcRespPlen * 1)
      (Receiver.counted (.client appRawClient req) stats)
      ((Receiver.client appRawClient req).deliver
        ((Receiver.client appRawClient req).up raw, stats) rxData) := by
  have hsize : appRawClient.rcRespPlen % 2 ^ 16 = appRawClient.rcRespPlen := Nat.mod_eq_of_lt hmax
  have hup : (Receiver.client appRawClient req).up raw =
      ⟨0, appRawClient.rcRespPlen, 0, 0, .sending⟩ := by
    simp only [Receiver.up, rawClientConnUp, rawClientInit, rawConnInit, rawGotoState, req, hsize,
      htstamp, hraw, Nat.zero_mod, if_true, Bool.false_eq_true, if_false]
  have hdeliver : (Receiver.client appRawClient req).deliver
      (⟨0, appRawClient.rcRespPlen, 0, 0, .sending⟩, stats) rxData =
        (⟨0, appRawClient.rcRespPlen, appRawClient.rcRespPlen, 0, .receiving⟩, stats.incResp) := by
    simp [Receiver.deliver, rawClientDeliverData, rawDeliver, rawDeliverData, rawGotoState,
      hpos.ne']
  rw [hup, hdeliver]
  constructor
  · rfl
  · rfl
  · rfl
  · rfl
  · rw [Nat.mul_one]
    exact (by rw [Receiver.size, Nat.mod_self, Nat.sub_zero])
  · rw [Nat.mul_one]
    exact (by rw [Receiver.size, Nat.div_self hpos]; rfl)

/-- The messages counted when the deliveries fit. -/
theorem received_count
    {deliveries : List RxData}
    (htstamp : r.rxTstamp = false)
    (hraw : raw.raRxTstampSize = 0)
    (hpos : 0 < r.size)
    (hmax : r.size < 2 ^ 16)
    (hfits : r.Fits (deliveries.map RxData.pktLen)) :
    r.counted (r.received raw stats deliveries).2 =
      r.counted stats + (deliveries.map RxData.pktLen).sum / r.size := by
  cases r with
  | server appRawServer resp =>
      have hup := @up_server raw stats appRawServer resp htstamp hraw hmax
      have hrun := hup.run hpos hfits
      rw [Receiver.received, hrun.counted, Nat.zero_add]
  | client appRawClient req =>
      cases deliveries with
      | nil =>
          exact (by simp [Receiver.received])
      | cons rxData deliveries =>
          obtain ⟨hfirst, hwithin⟩ := hfits
          rw [List.map_cons, WithinMessages.cons_iff, Nat.zero_add] at hwithin
          have hlen : rxData.pktLen = appRawClient.rcRespPlen := hfirst _ rfl
          have hup := @up_client raw stats _ req htstamp hraw hpos hmax rxData
          rw [Nat.mul_one] at hup
          rw [hlen] at hwithin
          have hrun := hup.run hpos hwithin.2
          rw [Receiver.received, run_cons, hrun.counted, List.map_cons, List.sum_cons, hlen]

/--
The count is right in every state of the session, and stays right however it goes on, just if
the deliveries fit.
-/
theorem received_count_iff
    {deliveries : List RxData}
    (htstamp : r.rxTstamp = false)
    (hraw : raw.raRxTstampSize = 0)
    (hpos : 1 ≤ r.size)
    (hmax : r.size ≤ 65535) :
    (∀ k n, 0 < k → k ≤ deliveries.length →
      r.counted (r.received raw stats (deliveries.take k ++ List.replicate n oneByte)).2 =
        r.counted stats + (((deliveries.take k).map RxData.pktLen).sum + n) / r.size) ↔
      r.Fits (deliveries.map RxData.pktLen) := by
  have hlt : r.size < 2 ^ 16 := by omega
  constructor
  · intro hcount
    cases r with
    | server appRawServer resp =>
        have hup := @up_server raw stats appRawServer resp htstamp hraw hlt
        refine hup.within hpos ?_
        intro k n hk hlen
        rw [Nat.zero_add]
        exact hcount k n hk hlen
    | client appRawClient req =>
        cases deliveries with
        | nil =>
            exact ⟨fun d hd => by simp at hd, withinMessages_nil⟩
        | cons rxData deliveries =>
            have hup := @up_client raw stats _ req htstamp hraw hpos hlt rxData
            have hfirst : rxData.pktLen = appRawClient.rcRespPlen := by
              rcases lt_trichotomy rxData.pktLen appRawClient.rcRespPlen with hless | heq | hover
              · -- too short a message is counted
                have hone := hcount 1 0 Nat.one_pos (Nat.succ_pos _)
                have hcounted := hup.counted
                rw [Nat.mul_one, Receiver.size,
                  Nat.div_self (show 0 < appRawClient.rcRespPlen from hpos)] at hcounted
                simp only [List.take_succ_cons, List.take_zero, List.replicate_zero,
                  List.append_nil, Receiver.received, run_cons, run_nil, List.map_cons,
                  List.map_nil, List.sum_cons, List.sum_nil, Nat.add_zero, Receiver.size,
                  Nat.div_eq_of_lt hless] at hone
                omega
              · exact heq
              · obtain ⟨n, hn⟩ := hup.lost hpos
                  (show appRawClient.rcRespPlen * 1 < rxData.pktLen by rwa [Nat.mul_one])
                refine absurd ?_ hn
                have hwrong := hcount 1 n Nat.one_pos (Nat.succ_pos _)
                simpa [Receiver.received] using hwrong
            refine ⟨fun d hd => ?_, ?_⟩
            · obtain rfl : rxData.pktLen = d := by simpa using hd
              exact hfirst
            · rw [List.map_cons, WithinMessages.cons_iff, Nat.zero_add, hfirst, Nat.zero_mod,
                Nat.zero_add]
              refine ⟨le_rfl, ?_⟩
              rw [Nat.mul_one] at hup
              refine hup.within hpos ?_
              intro k n _ hk
              have hnext := hcount (k + 1) n (Nat.succ_pos k) (Nat.succ_le_succ hk)
              rw [List.take_succ_cons, List.cons_append, List.map_cons, List.sum_cons,
                hfirst] at hnext
              exact hnext
  · intro hfits k n hk hlen
    have hcount := @received_count r raw stats (deliveries.take k ++ List.replicate n oneByte)
      htstamp hraw hpos hlt
    rw [List.map_append, List.sum_append, sum_ones] at hcount
    refine hcount ?_
    -- a beginning of the session, continued byte by byte
    have hwithin : ∀ size, 0 < size → WithinMessages size 0 (deliveries.map RxData.pktLen) →
        WithinMessages size 0 ((deliveries.take k).map RxData.pktLen ++
          (List.replicate n oneByte).map RxData.pktLen) := by
      intro size hsize h
      rw [← List.take_append_drop k deliveries, List.map_append, WithinMessages.append_iff] at h
      exact WithinMessages.append_iff.2 ⟨h.1, withinMessages_ones _ n hsize⟩
    cases r with
    | server appRawServer resp =>
        exact hwithin _ hpos hfits
    | client appRawClient req =>
        refine ⟨?_, hwithin _ hpos hfits.2⟩
        intro d hd
        refine hfits.1 d ?_
        cases deliveries with
        | nil =>
            exact absurd hlen (Nat.not_le_of_lt hk)
        | cons rxData deliveries =>
            obtain ⟨k, rfl⟩ := Nat.exists_eq_succ_of_ne_zero hk.ne'
            simpa using hd

/-- Two requests of four bytes, the second one begun in the first delivery. -/
theorem received_count_two :
    ∃ r : Receiver, r.size = 4 ∧ r.rxTstamp = false ∧
      r.counted (r.received ⟨0, 0, 0, 0, .receiving⟩ ⟨0, 0⟩ [⟨6, 0, none⟩, ⟨2, 0, none⟩]).2 ≠
        (6 + 2) / r.size := by
  exact ⟨.server ⟨4, 0, ⟨false, false⟩, ⟨false, false⟩⟩ rfl, rfl, rfl, by decide⟩

/-- The same requests, each delivered on its own. -/
theorem received_count_iff_whole :
    ∃ r : Receiver, r.size = 4 ∧ r.rxTstamp = false ∧
      r.counted
        (r.received ⟨0, 0, 0, 0, .receiving⟩ ⟨0, 0⟩ [⟨4, 0, none⟩, ⟨4, 0, none⟩]).2 = 2 := by
  let r : Receiver := .server ⟨4, 0, ⟨false, false⟩, ⟨false, false⟩⟩ rfl
  have hfits : WithinMessages 4 0 [4, 4] := by
    rw [WithinMessages.cons_iff, WithinMessages.cons_iff]
    exact ⟨by decide, by decide, withinMessages_nil⟩
  have hcount := (@received_count_iff r ⟨0, 0, 0, 0, .receiving⟩ ⟨0, 0⟩
    [⟨4, 0, none⟩, ⟨4, 0, none⟩] rfl rfl (by decide) (by decide)).2 hfits
  exact ⟨r, rfl, rfl, (hcount 2 0 (by decide) le_rfl).trans (by decide)⟩

end Sessions

end RawApplication
end Warp17
