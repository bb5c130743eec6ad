import Warp17.RawExchange
import Warp17.ReceiveLengths

/-!
# The sizes of RAW messages

A session of a RAW application (src/src/appl/tpg_test_raw_app.c) takes the sizes of its messages
from the configuration, which has them in 32 bits; `raw_app_t` (src/inc/appl/tpg_test_raw_app.h) has
16.  Every message begins with its size as the remaining count.

A chain to send is made of segments of one template.  Where the session takes transmit timestamps,
the first chain of a message is trimmed to make room for one, under an assertion.

The session keeps a record of the sizes of the messages that it has sent and received whole.

**Results**
- `rawPrependTstamp_sum`: a timestamp leaves the length of a chain.
- `Kept.step`: one step of a session of the right sizes.
- `sizesHonoured_iff`: the sizes and the steps with which all messages have the configured size.
-/

namespace Warp17
namespace RawSizes

open ControlBlock GuardedRuns TestCaseConfig RawApplication

/-- The end of a connection: its role and its configuration. -/
inductive Endpoint
  | client (appRawClient : RawClient)
  | server (appRawServer : RawServer)
deriving DecidableEq, Repr

/-- The configured size of the messages that the endpoint sends. -/
def Endpoint.outgoing : Endpoint → Nat
  | .client app => app.rcReqPlen
  | .server app => app.rsRespPlen

/-- The configured size of the messages that it receives. -/
def Endpoint.incoming : Endpoint → Nat
  | .client app => app.rcRespPlen
  | .server app => app.rsReqPlen

def Endpoint.txTstamp : Endpoint → Bool
  | .client app => app.rcTxTstamp.bool
  | .server app => app.rsTxTstamp.bool

/-- `raw_client_validate_cfg` and `raw_server_validate_cfg`. -/
def Endpoint.validateCfg (sockopt : Option Ipv4Sockopt) : Endpoint → Bool
  | .client app => rawClientValidateCfg sockopt app
  | .server app => rawServerValidateCfg sockopt app

def Endpoint.init (raw : RawApp) : Endpoint → RawApp
  | .client app => rawClientInit raw app
  | .server app => rawServerInit raw app

def Endpoint.connUp (raw : RawApp) : Endpoint → RawApp × List TestNotif
  | .client _ => rawClientConnUp raw
  | .server _ => rawServerConnUp raw

def Endpoint.deliverData (raw : RawApp) (stats : RawStats) (rxData : RxData) :
    Endpoint → RawOutcome Nat
  | .client _ => rawClientDeliverData raw stats rxData
  | .server _ => rawServerDeliverData raw stats rxData

def Endpoint.dataSent (raw : RawApp) (stats : RawStats) (bytesSent : Nat) :
    Endpoint → RawOutcome Bool
  | .client _ => rawClientDataSent raw stats bytesSent
  | .server _ => rawServerDataSent raw stats bytesSent

/-- The counter of the messages received. -/
def Endpoint.counted (stats : RawStats) : Endpoint → Nat
  | .client _ => stats.rstsRespCnt
  | .server _ => stats.rstsReqCnt

/-! ## Chains to send -/

/-- `RAW_DATA_TEMPLATE_SIZE` -/
def rawDataTemplateSize : Nat :=
  2048

/-- The lengths of the segments of `data_chain_from_static_template`. -/
def staticTemplateSegs (dataLen : Nat) : List Nat :=
  if dataLen ≤ rawDataTemplateSize then [dataLen]
  else rawDataTemplateSize :: staticTemplateSegs (dataLen - rawDataTemplateSize)
termination_by dataLen
decreasing_by
  rw [rawDataTemplateSize] at *
  omega

/-- `rte_pktmbuf_trim` on the lengths of the segments: bytes off the last one, if it has them. -/
def trimSegs (len : Nat) : List Nat → Option (List Nat)
  | [] => none
  | [seg] => if seg < len then none else some [seg - len]
  | seg :: next :: segs => (trimSegs len (next :: segs)).map (seg :: ·)

/-- `raw_prepend_tstamp`; `mbuf` says that there is an mbuf for the timestamp, and its physical
address.  `none` is the failed assertion. -/
def rawPrependTstamp (raw : RawApp) (txTstampSize : Nat) (mbuf : Bool) (txMbuf : List Nat) :
    Option (List Nat) :=
  if txTstampSize ≠ 0 ∧ raw.raReqSize = raw.raRemainingCount then
    if !mbuf then some txMbuf
    else if txMbuf.sum < rawLatencySize then some txMbuf
    else if txMbuf.sum = rawLatencySize then some [rawLatencySize]
    else (trimSegs rawLatencySize txMbuf).map (rawLatencySize :: ·)
  else some txMbuf

/-- `raw_send_data`, with the mbufs for it: its chain, or the failed assertion. -/
def rawSendChain (raw : RawApp) (txTstampSize : Nat) (mbuf : Bool) (maxTxSize : Nat) :
    Option (List Nat) :=
  if rawSendData raw maxTxSize = 0 then some []
  else rawPrependTstamp raw txTstampSize mbuf (staticTemplateSegs (rawSendData raw maxTxSize))

/-! ### Timestamps and lengths -/

/-- The segments that are received are trimmed in the same way. -/
theorem trimSegs_lengths
    (len : L4Checksum.U16) (mbuf : MbufChains.Chain) :
    trimSegs len.toNat (mbuf.map fun m => m.data.length) =
      (ReceiveLengths.trimLastseg len mbuf).map fun c => c.map fun m => m.data.length := by
  induction mbuf with
  | nil =>
      rfl
  | cons m rest ih =>
      cases rest with
      | nil =>
          rw [List.map_singleton, trimSegs, ReceiveLengths.trimLastseg]
          split
          · rfl
          · simp
      | cons next rest =>
          rw [List.map_cons] at ih
          rw [List.map_cons, List.map_cons, trimSegs, ih, ReceiveLengths.trimLastseg,
            Option.map_map, Option.map_map]
          rfl

theorem trimSegs_sum
    {len : Nat} {segs segs' : List Nat}
    (htrim : trimSegs len segs = some segs') :
    segs'.sum + len = segs.sum := by
  induction segs generalizing segs' with
  | nil =>
      cases htrim
  | cons seg segs ih =>
      cases segs with
      | nil =>
          rw [trimSegs] at htrim
          split at htrim
          next => cases htrim
          next hfits =>
            obtain rfl := Option.some.inj htrim
            simp only [List.sum_cons, List.sum_nil]
            omega
      | cons next segs =>
          obtain ⟨rest, hrest, rfl⟩ := Option.map_eq_some_iff.1 htrim
          have hsum := ih hrest
          rw [List.sum_cons, List.sum_cons]
          omega

theorem trimSegs_eq_none
    {len : Nat} {segs : List Nat} :
    trimSegs len segs = none ↔ ∀ seg ∈ segs.getLast?, seg < len := by
  induction segs with
  | nil =>
      simp [trimSegs]
  | cons seg segs ih =>
      cases segs with
      | nil =>
          rw [trimSegs]
          split
          next hshort => simpa using hshort
          next hfits => simpa using hfits
      | cons next segs =>
          rw [trimSegs, Option.map_eq_none_iff, ih, List.getLast?_cons_cons]

/-- The segments make up the length, and the last one is what the template leaves. -/
theorem staticTemplateSegs_spec
    {dataLen : Nat}
    (hpos : 0 < dataLen) :
    (staticTemplateSegs dataLen).sum = dataLen ∧
      (staticTemplateSegs dataLen).getLast? = some ((dataLen - 1) % rawDataTemplateSize + 1) := by
  fun_induction staticTemplateSegs dataLen with
  | case1 dataLen hle =>
      refine ⟨List.sum_singleton, ?_⟩
      rw [Nat.mod_eq_of_lt (by omega), Nat.sub_add_cancel hpos]
      rfl
  | case2 dataLen hgt ih =>
      obtain ⟨hsum, hlast⟩ := ih (by omega)
      have hmod : (dataLen - 1) % rawDataTemplateSize =
          (dataLen - rawDataTemplateSize - 1) % rawDataTemplateSize := by
        rw [Nat.mod_eq_sub_mod (by omega), Nat.sub_right_comm]
      refine ⟨?_, ?_⟩
      · rw [List.sum_cons, hsum]
        omega
      · rw [List.getLast?_cons, hlast, Option.getD_some, hmod]

/-- A timestamp takes the place of as many bytes. -/
theorem rawPrependTstamp_sum
    {raw : RawApp} {txTstampSize : Nat} {mbuf : Bool} {segs segs' : List Nat}
    (hchain : rawPrependTstamp raw txTstampSize mbuf segs = some segs') :
    segs'.sum = segs.sum := by
  rw [rawPrependTstamp] at hchain
  split at hchain
  · split at hchain
    · rw [Option.some.inj hchain]
    · split at hchain
      · rw [Option.some.inj hchain]
      · split at hchain
        next hall =>
          obtain rfl := Option.some.inj hchain
          rw [List.sum_singleton, hall]
        next =>
          obtain ⟨rest, hrest, rfl⟩ := Option.map_eq_some_iff.1 hchain
          rw [List.sum_cons, Nat.add_comm, trimSegs_sum hrest]
  · rw [Option.some.inj hchain]

/-- The chain to send has the length that `rawSendData` says. -/
theorem rawSendChain_sum
    {raw : RawApp} {txTstampSize maxTxSize : Nat} {mbuf : Bool} {segs : List Nat}
    (hchain : rawSendChain raw txTstampSize mbuf maxTxSize = some segs) :
    segs.sum = rawSendData raw maxTxSize := by
  rw [rawSendChain] at hchain
  split at hchain
  next hzero =>
    rw [← Option.some.inj hchain, hzero, List.sum_nil]
  next hpos =>
    rw [rawPrependTstamp_sum hchain, (staticTemplateSegs_spec (Nat.pos_of_ne_zero hpos)).1]

/-! ## Sessions -/

/-- A session, and the record of its messages: the bytes of the message it is at, and the sizes of
those that are complete. -/
structure RawSession where
  appEnd : RawEnd
  txTstampSize : Nat
  aborted : Bool
  part : Nat
  sent : List Nat
  received : List Nat
deriving DecidableEq, Repr

/-- The transport asks for at most `maxTxSize` bytes and takes `accepted` of the chain; `mbufs`
says that there are mbufs for the chain, and `tstamp` that there is one for the timestamp. -/
inductive SessionInput
  | send (maxTxSize : Nat) (mbufs tstamp : Bool) (accepted : Nat)
  | deliver (rxData : RxData)
deriving DecidableEq, Repr

variable (e : Endpoint)

/-- The session when the connection is up.  `raw` and `txTstampSize` are what its control block
was left with; a size of the timestamp stays where the configuration has none. -/
def sessionUp (raw : RawApp) (txTstampSize : Nat) : RawSession :=
  let up := e.connUp (e.init raw)
  { appEnd := ⟨up.1, ⟨0, 0⟩, up.2.foldl notify false⟩
    txTstampSize := if e.txTstamp then rawLatencySize else txTstampSize
    aborted := false
    part := 0
    sent := []
    received := [] }

/-- The bytes that the transport took are reported if there are any. -/
def RawSession.dataSent (s : RawSession) (accepted : Nat) : RawSession :=
  if accepted = 0 then s
  else
    let out := e.dataSent s.appEnd.raw s.appEnd.stats accepted
    { s with
      appEnd := s.appEnd.leave out
      sent := if out.result then (s.part + accepted) :: s.sent else s.sent
      part := if out.result then 0 else s.part + accepted }

def RawSession.deliver (s : RawSession) (rxData : RxData) : RawSession :=
  let took := s.appEnd.raw.raRemainingCount -
    (rawDeliverData s.appEnd.raw rxData).raw.raRemainingCount
  let out := e.deliverData s.appEnd.raw s.appEnd.stats rxData
  let complete := e.counted out.stats ≠ e.counted s.appEnd.stats
  { s with
    appEnd := s.appEnd.leave out
    received := if complete then (s.part + took) :: s.received else s.received
    part := if complete then 0 else s.part + took }

def sessionStep (s : RawSession) : SessionInput → RawSession
  | .send maxTxSize mbufs tstamp accepted =>
      if mbufs = true ∧ rawSendChain s.appEnd.raw s.txTstampSize tstamp maxTxSize = none then
        { s with aborted := true }
      else s.dataSent e accepted
  | .deliver rxData => s.deliver e rxData

/-- What can happen to a session: it is asked for data while it is sending, and the transport
takes a part of the chain; and anything can arrive. -/
def CanHappen (s : RawSession) : SessionInput → Prop
  | .send maxTxSize mbufs _ accepted =>
      s.aborted = false ∧ s.appEnd.sending = true ∧
        accepted ≤ if mbufs then rawSendData s.appEnd.raw maxTxSize else 0
  | .deliver _ => s.aborted = false

/-- The size of the messages of a state. -/
def Endpoint.messageSize : Endpoint → RawState → Nat
  | e, .sending => e.outgoing
  | e, .receiving => e.incoming

/-- Every message sent or received has the configured size, and the one that the session is at
will have it. -/
structure SizesHonoured (s : RawSession) : Prop where
  running : s.aborted = false
  reqSize : s.appEnd.raw.raReqSize = e.outgoing
  respSize : s.appEnd.raw.raRespSize = e.incoming
  sent : ∀ size ∈ s.sent, size = e.outgoing
  received : ∀ size ∈ s.received, size = e.incoming
  current : s.part + s.appEnd.raw.raRemainingCount = e.messageSize s.appEnd.raw.raState

/-- The chain that a message begins with is longer than a timestamp, and its last segment is
shorter. -/
def TrimFails (s : RawSession) (tstamp : Bool) (maxTxSize : Nat) : Prop :=
  let len := rawSendData s.appEnd.raw maxTxSize
  tstamp = true ∧ s.txTstampSize ≠ 0 ∧
    s.appEnd.raw.raReqSize = s.appEnd.raw.raRemainingCount ∧
    rawLatencySize < len ∧ (len - 1) % rawDataTemplateSize + 1 < rawLatencySize

/-- The steps that keep the sizes: a chain can be trimmed for its timestamp, and nothing arrives
for a client that has no requests and waits in the sending state. -/
def StepOk (s : RawSession) : SessionInput → Prop
  | .send maxTxSize mbufs tstamp _ => ¬ (mbufs = true ∧ TrimFails s tstamp maxTxSize)
  | .deliver _ => ¬ (s.appEnd.raw.raState = .sending ∧ s.appEnd.raw.raRemainingCount = 0 ∧
      s.appEnd.raw.raRespSize ≠ 0)

/-! ## One step -/

section Steps

variable {e} {s : RawSession}

theorem rawSendChain_eq_none
    {tstamp : Bool} {maxTxSize : Nat} :
    rawSendChain s.appEnd.raw s.txTstampSize tstamp maxTxSize = none ↔
      TrimFails s tstamp maxTxSize := by
  rw [rawSendChain, TrimFails]
  rcases Nat.eq_zero_or_pos (rawSendData s.appEnd.raw maxTxSize) with hzero | hpos
  · rw [if_pos hzero, hzero]
    simp
  · obtain ⟨hsum, hlast⟩ := staticTemplateSegs_spec hpos
    rw [if_neg hpos.ne', rawPrependTstamp, hsum]
    by_cases hstart : s.txTstampSize ≠ 0 ∧
        s.appEnd.raw.raReqSize = s.appEnd.raw.raRemainingCount
    · rw [if_pos hstart]
      cases tstamp with
      | false =>
          simp
      | true =>
          rw [if_neg (by decide)]
          by_cases hshort : rawSendData s.appEnd.raw maxTxSize < rawLatencySize
          · rw [if_pos hshort]
            refine ⟨fun hnone => (Option.some_ne_none _ hnone).elim, fun hfails => ?_⟩
            exact absurd hfails.2.2.2.1 (Nat.not_lt.2 hshort.le)
          · rw [if_neg hshort]
            by_cases hall : rawSendData s.appEnd.raw maxTxSize = rawLatencySize
            · rw [if_pos hall]
              refine ⟨fun hnone => (Option.some_ne_none _ hnone).elim, fun hfails => ?_⟩
              exact absurd hfails.2.2.2.1 (Nat.not_lt.2 hall.le)
            · rw [if_neg hall, Option.map_eq_none_iff, trimSegs_eq_none, hlast]
              refine ⟨fun hseg => ⟨rfl, hstart.1, hstart.2, by omega, hseg _ rfl⟩, ?_⟩
              rintro ⟨-, -, -, -, hseg⟩ seg ⟨⟩
              exact hseg
    · rw [if_neg hstart]
      refine ⟨fun hnone => (Option.some_ne_none _ hnone).elim, fun hfails => ?_⟩
      exact absurd ⟨hfails.2.1, hfails.2.2.1⟩ hstart

/-- What a session of the right sizes keeps: the sizes, and that a message of any bytes has some
remaining. -/
structure Kept (e : Endpoint) (s : RawSession) : Prop where
  honoured : SizesHonoured e s
  sending : s.appEnd.sending = true → s.appEnd.raw.raState = .sending
  remaining : s.appEnd.raw.raRemainingCount = 0 → e.messageSize s.appEnd.raw.raState = 0

/-- The sizes of the configuration fit into the 16 bits of the session. -/
def SizesFit (e : Endpoint) : Prop :=
  e.outgoing < 2 ^ 16 ∧ e.incoming < 2 ^ 16

/-- A session that begins its next message. -/
theorem kept_next
    {raw : RawApp} {stats : RawStats} {sending : Bool} {txTstampSize : Nat}
    {sent received : List Nat} {state : RawState}
    (hreq : raw.raReqSize = e.outgoing)
    (hresp : raw.raRespSize = e.incoming)
    (hsent : ∀ size ∈ sent, size = e.outgoing)
    (hreceived : ∀ size ∈ received, size = e.incoming)
    (hsending : sending = true → state = .sending) :
    Kept e ⟨⟨rawGotoState raw state (e.messageSize state), stats, sending⟩, txTstampSize, false, 0,
      sent, received⟩ := by
  refine ⟨⟨rfl, hreq, hresp, hsent, hreceived, Nat.zero_add _⟩, hsending, fun hzero => hzero⟩

/-- The session after a client or a server has sent the last byte of a message. -/
theorem Endpoint.dataSent_last
    {raw : RawApp} {stats : RawStats} {bytesSent : Nat}
    (hreq : raw.raReqSize = e.outgoing)
    (hresp : raw.raRespSize = e.incoming)
    (hlast : (rawDataSent raw bytesSent).raRemainingCount = 0) :
    ∃ state stats' notifs, e.dataSent raw stats bytesSent =
      ⟨rawGotoState (rawDataSent raw bytesSent) state (e.messageSize state), stats', true,
        notifs⟩ ∧ ∀ b, notifs.foldl notify b = true → state = .sending := by
  cases e with
  | client app =>
      by_cases hzero : (rawDataSent raw bytesSent).raRespSize = 0
      · refine ⟨.sending, stats.incReq, [.appSendStop, .appSendStart], ?_, fun b _ => rfl⟩
        simp only [Endpoint.dataSent, rawClientDataSent, if_pos hlast]
        rw [if_neg (not_not.2 hzero), Endpoint.messageSize, ← hreq]
        rfl
      · refine ⟨.receiving, stats.incReq, [.appSendStop], ?_, fun b hb => Bool.noConfusion hb⟩
        simp only [Endpoint.dataSent, rawClientDataSent, if_pos hlast]
        rw [if_pos hzero, Endpoint.messageSize, ← hresp]
        rfl
  | server app =>
      refine ⟨.receiving, stats.incResp, [.appSendStop], ?_, fun b hb => Bool.noConfusion hb⟩
      simp only [Endpoint.dataSent, rawServerDataSent, if_pos hlast]
      rw [Endpoint.messageSize, ← hresp]
      rfl

theorem Endpoint.dataSent_part
    {raw : RawApp} {stats : RawStats} {bytesSent : Nat}
    (hpart : (rawDataSent raw bytesSent).raRemainingCount ≠ 0) :
    e.dataSent raw stats bytesSent = ⟨rawDataSent raw bytesSent, stats, false, []⟩ := by
  cases e with
  | client app => simp only [Endpoint.dataSent, rawClientDataSent, if_neg hpart]
  | server app => simp only [Endpoint.dataSent, rawServerDataSent, if_neg hpart]

/-- Bytes that are sent. -/
theorem Kept.dataSent
    {accepted : Nat}
    (h : Kept e s)
    (hfit : SizesFit e)
    (hsending : s.appEnd.sending = true)
    (haccepted : accepted ≤ s.appEnd.raw.raRemainingCount) :
    Kept e (s.dataSent e accepted) := by
  rw [RawSession.dataSent]
  split
  next => exact h
  next hsome =>
    obtain ⟨⟨hrunning, hreq, hresp, hsent, hreceived, hcurrent⟩, hflag, hremaining⟩ := h
    have hstate := hflag hsending
    rw [hstate, Endpoint.messageSize] at hcurrent
    have hbound := hfit.1
    have hcount : s.appEnd.raw.raRemainingCount < 2 ^ 16 := by omega
    have hraw : rawDataSent s.appEnd.raw accepted =
        { s.appEnd.raw with raRemainingCount := s.appEnd.raw.raRemainingCount - accepted } :=
      rawDataSent_eq haccepted hcount
    by_cases hlast : s.appEnd.raw.raRemainingCount - accepted = 0
    · obtain ⟨state, stats', notifs, hout, hnotifs⟩ :=
        @Endpoint.dataSent_last e s.appEnd.raw s.appEnd.stats accepted hreq hresp
          (by rw [hraw]; exact hlast)
      rw [hout]
      have hnext := @kept_next e (rawDataSent s.appEnd.raw accepted) stats'
        (notifs.foldl notify s.appEnd.sending) s.txTstampSize ((s.part + accepted) :: s.sent)
        s.received state (by rw [hraw]; exact hreq) (by rw [hraw]; exact hresp) ?_ hreceived
        (hnotifs s.appEnd.sending)
      · rw [← hrunning] at hnext
        exact hnext
      · intro size hsize
        rcases List.mem_cons.1 hsize with rfl | hsize
        · omega
        · exact hsent size hsize
    · rw [Endpoint.dataSent_part (by rw [hraw]; exact hlast), hraw]
      refine ⟨⟨hrunning, hreq, hresp, hsent, hreceived, ?_⟩, fun _ => hstate,
        fun hzero => absurd hzero hlast⟩
      show s.part + accepted + (s.appEnd.raw.raRemainingCount - accepted) =
        e.messageSize s.appEnd.raw.raState
      rw [hstate, Endpoint.messageSize]
      omega

/-- A delivery lowers the remaining count of a session that is receiving, and no other's. -/
theorem rawDeliverData_raw
    (raw : RawApp) (rxData : RxData) :
    ∃ left ≤ raw.raRemainingCount,
      (rawDeliverData raw rxData).raw = { raw with raRemainingCount := left } ∧
      (raw.raState = .sending → left = raw.raRemainingCount) := by
  rw [rawDeliverData]
  split
  next =>
    exact ⟨raw.raRemainingCount, le_rfl, rfl, fun _ => rfl⟩
  next hreceiving =>
    have hstate : raw.raState = .sending → False := fun hsending => hreceiving (by simp [hsending])
    dsimp only
    split
    · exact ⟨raw.raRemainingCount, le_rfl, rfl, fun _ => rfl⟩
    · exact ⟨_, Nat.sub_le _ _, rfl, fun hsending => (hstate hsending).elim⟩

theorem Endpoint.deliverData_eq
    (e : Endpoint) :
    ∃ count : RawStats → RawStats, (∀ stats, e.counted (count stats) = e.counted stats + 1) ∧
      ∀ raw stats rxData, e.deliverData raw stats rxData = rawDeliver count raw stats rxData := by
  cases e with
  | client app => exact ⟨RawStats.incResp, fun _ => rfl, fun _ _ _ => rfl⟩
  | server app => exact ⟨RawStats.incReq, fun _ => rfl, fun _ _ _ => rfl⟩

/-- A delivery that does not complete a message. -/
theorem RawSession.deliver_part
    {rxData : RxData} {left : Nat}
    (hraw : (rawDeliverData s.appEnd.raw rxData).raw =
      { s.appEnd.raw with raRemainingCount := left })
    (hpart : ¬ (left = 0 ∧ s.appEnd.raw.raRespSize ≠ 0)) :
    s.deliver e rxData =
      { s with
        appEnd := { s.appEnd with raw := { s.appEnd.raw with raRemainingCount := left } }
        part := s.part + (s.appEnd.raw.raRemainingCount - left) } := by
  obtain ⟨count, -, hdeliver⟩ := e.deliverData_eq
  simp only [RawSession.deliver, hdeliver, rawDeliver, hraw, if_neg hpart, ne_eq, not_true_eq_false,
    if_false]
  rfl

/-- A delivery that completes a message, and begins the next one. -/
theorem RawSession.deliver_last
    {rxData : RxData}
    (hreq : s.appEnd.raw.raReqSize = e.outgoing)
    (hresp : s.appEnd.raw.raRespSize = e.incoming)
    (hraw : (rawDeliverData s.appEnd.raw rxData).raw =
      { s.appEnd.raw with raRemainingCount := 0 })
    (hsome : s.appEnd.raw.raRespSize ≠ 0) :
    ∃ state stats sending, (sending = true → state = .sending ∨ s.appEnd.sending = true) ∧
      s.deliver e rxData =
        { s with
          appEnd := ⟨rawGotoState s.appEnd.raw state (e.messageSize state), stats, sending⟩
          received := (s.part + s.appEnd.raw.raRemainingCount) :: s.received
          part := 0 } := by
  obtain ⟨count, hcount, hdeliver⟩ := e.deliverData_eq
  have hcounted : e.counted (count s.appEnd.stats) ≠ e.counted s.appEnd.stats := by
    rw [hcount]
    exact Nat.succ_ne_self _
  by_cases hzero : s.appEnd.raw.raReqSize = 0
  · refine ⟨.receiving, count s.appEnd.stats, s.appEnd.sending, Or.inr, ?_⟩
    simp only [RawSession.deliver, hdeliver, rawDeliver, hraw, true_and, if_pos hsome,
      if_neg (not_not.2 hzero), if_pos hcounted, Nat.sub_zero, Endpoint.messageSize, ← hresp]
    rfl
  · refine ⟨.sending, count s.appEnd.stats, true, fun _ => Or.inl rfl, ?_⟩
    simp only [RawSession.deliver, hdeliver, rawDeliver, hraw, true_and, if_pos hsome,
      if_pos (show s.appEnd.raw.raReqSize ≠ 0 from hzero), if_pos hcounted, Nat.sub_zero,
      Endpoint.messageSize, ← hreq]
    rfl

/-- Bytes that arrive. -/
theorem Kept.deliver
    {rxData : RxData}
    (h : Kept e s)
    (hok : ¬ (s.appEnd.raw.raState = .sending ∧ s.appEnd.raw.raRemainingCount = 0 ∧
      s.appEnd.raw.raRespSize ≠ 0)) :
    Kept e (s.deliver e rxData) := by
  obtain ⟨⟨hrunning, hreq, hresp, hsent, hreceived, hcurrent⟩, hflag, hremaining⟩ := h
  obtain ⟨left, hle, hraw, hsending⟩ := rawDeliverData_raw s.appEnd.raw rxData
  by_cases hdone : left = 0 ∧ s.appEnd.raw.raRespSize ≠ 0
  · obtain ⟨rfl, hsome⟩ := hdone
    have hstate : s.appEnd.raw.raState = .receiving := by
      cases hcase : s.appEnd.raw.raState with
      | sending => exact absurd ⟨hcase, (hsending hcase).symm, hsome⟩ hok
      | receiving => rfl
    obtain ⟨state, stats, sending, himp, hdeliver⟩ :=
      @RawSession.deliver_last e s rxData hreq hresp hraw hsome
    rw [hdeliver, hrunning]
    refine kept_next hreq hresp hsent (fun size hsize => ?_) fun htrue => ?_
    · rcases List.mem_cons.1 hsize with rfl | hsize
      · rw [hcurrent, hstate, Endpoint.messageSize]
      · exact hreceived size hsize
    · rcases himp htrue with hnext | hbefore
      · exact hnext
      · rw [hflag hbefore] at hstate
        cases hstate
  · rw [RawSession.deliver_part hraw hdone]
    refine ⟨⟨hrunning, hreq, hresp, hsent, hreceived, ?_⟩, hflag, fun hzero => ?_⟩
    · show s.part + (s.appEnd.raw.raRemainingCount - left) + left =
        e.messageSize s.appEnd.raw.raState
      omega
    · obtain rfl : left = 0 := hzero
      cases hcase : s.appEnd.raw.raState with
      | sending =>
          have hsize := hremaining (hsending hcase).symm
          rwa [hcase] at hsize
      | receiving =>
          rw [Endpoint.messageSize, ← hresp]
          exact not_not.1 fun hsome => hdone ⟨rfl, hsome⟩

/-- The first delivery to a client without requests counts as a response of no bytes. -/
theorem Kept.deliver_empty
    {rxData : RxData}
    (h : Kept e s)
    (hbad : s.appEnd.raw.raState = .sending ∧ s.appEnd.raw.raRemainingCount = 0 ∧
      s.appEnd.raw.raRespSize ≠ 0) :
    ¬ SizesHonoured e (s.deliver e rxData) := by
  obtain ⟨hstate, hzero, hsome⟩ := hbad
  obtain ⟨⟨-, hreq, hresp, -, -, hcurrent⟩, -, hremaining⟩ := h
  obtain ⟨left, hle, hraw, -⟩ := rawDeliverData_raw s.appEnd.raw rxData
  obtain rfl : left = 0 := by omega
  obtain ⟨state, stats, sending, -, hdeliver⟩ :=
    @RawSession.deliver_last e s rxData hreq hresp hraw hsome
  intro hhonoured
  rw [hdeliver] at hhonoured
  have hsize := hhonoured.received _ List.mem_cons_self
  rw [hcurrent, hremaining hzero, ← hresp] at hsize
  exact hsome hsize.symm

theorem Kept.step
    {i : SessionInput}
    (hfit : SizesFit e)
    (h : Kept e s)
    (hcan : CanHappen s i)
    (hok : StepOk s i) :
    Kept e (sessionStep e s i) := by
  cases i with
  | send maxTxSize mbufs tstamp accepted =>
      obtain ⟨-, hsending, haccepted⟩ := hcan
      have hchain : ¬ (mbufs = true ∧
          rawSendChain s.appEnd.raw s.txTstampSize tstamp maxTxSize = none) :=
        fun hnone => hok ⟨hnone.1, rawSendChain_eq_none.1 hnone.2⟩
      rw [sessionStep, if_neg hchain]
      refine h.dataSent hfit hsending (haccepted.trans ?_)
      split
      · exact min_le_left _ _
      · exact Nat.zero_le _
  | deliver rxData =>
      exact h.deliver hok

theorem Kept.step_bad
    {i : SessionInput}
    (h : Kept e s)
    (hbad : ¬ StepOk s i) :
    ¬ SizesHonoured e (sessionStep e s i) := by
  cases i with
  | send maxTxSize mbufs tstamp accepted =>
      obtain ⟨hmbufs, hfails⟩ := not_not.1 hbad
      rw [sessionStep, if_pos ⟨hmbufs, rawSendChain_eq_none.2 hfails⟩]
      exact fun hhonoured => Bool.noConfusion hhonoured.running
  | deliver rxData =>
      exact h.deliver_empty (not_not.1 hbad)

end Steps

/-! ## Runs -/

section Runs

variable {raw : RawApp} {txTstampSize : Nat}

theorem sessionUp_raw :
    (sessionUp e raw txTstampSize).appEnd.raw.raReqSize = e.outgoing % 2 ^ 16 ∧
      (sessionUp e raw txTstampSize).appEnd.raw.raRespSize = e.incoming % 2 ^ 16 := by
  cases e with
  | client app =>
      rw [sessionUp, Endpoint.connUp, rawClientConnUp]
      dsimp only
      split <;> exact ⟨rfl, rfl⟩
  | server app =>
      exact ⟨rfl, rfl⟩

theorem kept_sessionUp
    (hfit : SizesFit e) :
    Kept e (sessionUp e raw txTstampSize) := by
  obtain ⟨hout, hin⟩ := hfit
  cases e with
  | client app =>
      have hreq : (rawClientInit raw app).raReqSize = app.rcReqPlen := Nat.mod_eq_of_lt hout
      have hresp : (rawClientInit raw app).raRespSize = app.rcRespPlen := Nat.mod_eq_of_lt hin
      rw [sessionUp, Endpoint.connUp, Endpoint.init, rawClientConnUp, hreq]
      split
      all_goals
        exact kept_next hreq hresp (fun _ hmem => absurd hmem List.not_mem_nil)
          (fun _ hmem => absurd hmem List.not_mem_nil) (fun _ => rfl)
  | server app =>
      have hreq : (rawServerInit raw app).raReqSize = app.rsRespPlen := Nat.mod_eq_of_lt hout
      have hresp : (rawServerInit raw app).raRespSize = app.rsReqPlen := Nat.mod_eq_of_lt hin
      rw [sessionUp, Endpoint.connUp, Endpoint.init, rawServerConnUp, hresp]
      exact @kept_next (.server app) _ _ false _ [] [] .receiving hreq hresp
        (fun _ hmem => absurd hmem List.not_mem_nil) (fun _ hmem => absurd hmem List.not_mem_nil)
        (fun hfalse => absurd hfalse Bool.false_ne_true)

/-- For every configuration, and every control block that a session begins with: the sizes are
honoured all the way of a run if and only if they fit and each step of the run keeps them. -/
theorem sizesHonoured_iff
    (e : Endpoint) (raw : RawApp) (txTstampSize : Nat) (is : List SessionInput)
    (hrun : Guarded (sessionStep e) CanHappen (sessionUp e raw txTstampSize) is) :
    (∀ js, js <+: is → SizesHonoured e (run (sessionStep e) (sessionUp e raw txTstampSize) js)) ↔
      SizesFit e ∧ Guarded (sessionStep e) StepOk (sessionUp e raw txTstampSize) is := by
  have hiff := fun hfit : SizesFit e =>
    guarded_iff_prefixes_possible (Kept e) (SizesHonoured e) (fun _ h => h.honoured)
      (fun _ _ h hcan hok => h.step hfit hcan hok) (fun _ _ h _ hbad => h.step_bad hbad)
      (kept_sessionUp e hfit) hrun
  constructor
  · intro hall
    have hup := hall [] List.nil_prefix
    obtain ⟨hreq, hresp⟩ := @sessionUp_raw e raw txTstampSize
    have hfit : SizesFit e := by
      refine ⟨?_, ?_⟩
      · rw [← hup.reqSize, run_nil, hreq]
        exact Nat.mod_lt _ (by decide)
      · rw [← hup.respSize, run_nil, hresp]
        exact Nat.mod_lt _ (by decide)
    exact ⟨hfit, (hiff hfit).2 hall⟩
  · rintro ⟨hfit, hrun⟩
    exact (hiff hfit).1 hrun

/-- A client of requests of three bytes and responses of two, and its first exchange. -/
theorem sizesHonoured_iff_three :
    (∀ js, js <+: [SessionInput.send 1460 true true 3, .deliver ⟨2, 0, none⟩] →
      SizesHonoured (.client ⟨3, 2, ⟨false, false⟩, ⟨false, false⟩⟩)
        (run (sessionStep (.client ⟨3, 2, ⟨false, false⟩, ⟨false, false⟩⟩))
          (sessionUp (.client ⟨3, 2, ⟨false, false⟩, ⟨false, false⟩⟩) ⟨0, 0, 0, 0, .sending⟩ 0)
          js)) ↔
      SizesFit (.client ⟨3, 2, ⟨false, false⟩, ⟨false, false⟩⟩) ∧
        Guarded (sessionStep (.client ⟨3, 2, ⟨false, false⟩, ⟨false, false⟩⟩)) StepOk
          (sessionUp (.client ⟨3, 2, ⟨false, false⟩, ⟨false, false⟩⟩) ⟨0, 0, 0, 0, .sending⟩ 0)
          [.send 1460 true true 3, .deliver ⟨2, 0, none⟩] :=
  sizesHonoured_iff _ _ _ _ ⟨⟨rfl, rfl, by decide⟩, rfl, trivial⟩

/-- A client of requests of 65537 bytes, which is accepted, sends a request of one byte. -/
theorem long_request_is_one_byte :
    (Endpoint.client ⟨65537, 1, ⟨false, false⟩, ⟨false, false⟩⟩).validateCfg none = true ∧
      ¬ SizesHonoured (.client ⟨65537, 1, ⟨false, false⟩, ⟨false, false⟩⟩)
        (run (sessionStep (.client ⟨65537, 1, ⟨false, false⟩, ⟨false, false⟩⟩))
          (sessionUp (.client ⟨65537, 1, ⟨false, false⟩, ⟨false, false⟩⟩) ⟨0, 0, 0, 0, .sending⟩ 0)
          [.send 1460 true true 1]) := by
  refine ⟨by decide, fun hhonoured => ?_⟩
  exact absurd (hhonoured.sent 1 (by decide)) (by decide)

end Runs

end RawSizes
end Warp17
