import Warp17.RawApplication

/-!
# A RAW client and a RAW server

The two ends are coupled by an in-order byte stream in each direction, of which only the number
of bytes in flight matters.  An end is asked for data while its test state machine is sending,
from `APP_SEND_START` to `APP_SEND_STOP` (`test_case_run_send_cb` in src/src/tpg_tests.c), and
the transport accepts any part of what it offers.

**Results**
- `Phase`: whose turn it is, and how both remaining counts follow from the bytes in flight.
- `exchange_phase`: every run stays in one of the phases.
- `exchange_ok`: no byte is discarded, neither end runs ahead by more than one message, and the
  ends never wait for each other with nothing in flight.
-/

namespace Warp17
namespace RawApplication

open ControlBlock GuardedRuns TestCaseConfig

/-- One end of the connection: the application and whether the test state machine is sending. -/
structure RawEnd where
  raw : RawApp
  stats : RawStats
  sending : Bool
deriving DecidableEq, Repr

/-- `TEST_NOTIF` for the two notifications of an application that sends. -/
def notify (sending : Bool) : TestNotif → Bool
  | .appSendStart => true
  | .appSendStop => false
  | _ => sending

def RawEnd.leave {α : Type} (e : RawEnd) (out : RawOutcome α) : RawEnd :=
  ⟨out.raw, out.stats, out.notifs.foldl notify e.sending⟩

/-- Both ends and the bytes in flight to each. -/
structure Exchange where
  client : RawEnd
  server : RawEnd
  toServer : Nat
  toClient : Nat
deriving DecidableEq, Repr

/-- `accepted` is what the transport takes of a chain of at most `maxTxSize` bytes. -/
inductive ExchangeInput
  | clientSend (maxTxSize accepted : Nat)
  | serverSend (maxTxSize accepted : Nat)
  | toServer (rxData : RxData)
  | toClient (rxData : RxData)
deriving DecidableEq, Repr

/-- The bytes sent are reported only if there are any. -/
def Exchange.clientSend (x : Exchange) (accepted : Nat) : Exchange :=
  if accepted = 0 then x
  else
    { x with
      client := x.client.leave (rawClientDataSent x.client.raw x.client.stats accepted)
      toServer := x.toServer + accepted }

def Exchange.serverSend (x : Exchange) (accepted : Nat) : Exchange :=
  if accepted = 0 then x
  else
    { x with
      server := x.server.leave (rawServerDataSent x.server.raw x.server.stats accepted)
      toClient := x.toClient + accepted }

/-- What the application does not take stays in the stream. -/
def Exchange.deliverToServer (x : Exchange) (rxData : RxData) : Exchange :=
  let out := rawServerDeliverData x.server.raw x.server.stats rxData
  { x with
    server := x.server.leave out
    toServer := x.toServer - out.result }

def Exchange.deliverToClient (x : Exchange) (rxData : RxData) : Exchange :=
  let out := rawClientDeliverData x.client.raw x.client.stats rxData
  { x with
    client := x.client.leave out
    toClient := x.toClient - out.result }

def exchangeStep (x : Exchange) : ExchangeInput → Exchange
  | .clientSend _ accepted => x.clientSend accepted
  | .serverSend _ accepted => x.serverSend accepted
  | .toServer rxData => x.deliverToServer rxData
  | .toClient rxData => x.deliverToClient rxData

/--
What can happen: an end that is sending is asked for data and some of it is accepted, or some of
the bytes in flight arrive.
-/
def Possible (x : Exchange) : ExchangeInput → Prop
  | .clientSend maxTxSize accepted =>
      x.client.sending = true ∧ accepted ≤ rawSendData x.client.raw maxTxSize
  | .serverSend maxTxSize accepted =>
      x.server.sending = true ∧ accepted ≤ rawSendData x.server.raw maxTxSize
  | .toServer rxData => rxData.pktLen ≤ x.toServer
  | .toClient rxData => rxData.pktLen ≤ x.toClient

/-- Both ends are up; the sessions have not counted anything. -/
def exchangeUp (rawC rawS : RawApp) (appRawClient : RawClient) (appRawServer : RawServer) :
    Exchange where
  client :=
    let up := rawClientConnUp (rawClientInit rawC appRawClient)
    ⟨up.1, ⟨0, 0⟩, up.2.foldl notify false⟩
  server :=
    let up := rawServerConnUp (rawServerInit rawS appRawServer)
    ⟨up.1, ⟨0, 0⟩, up.2.foldl notify false⟩
  toServer := 0
  toClient := 0

/-- A delivery that the application can take as a whole. -/
def Wanted (raw : RawApp) (rxData : RxData) : Prop :=
  rxData.pktLen = 0 ∨ raw.raState = .receiving ∧ rxData.pktLen ≤ raw.raRemainingCount

/-- No byte that can arrive is discarded, and the counts of both ends are in step. -/
structure ExchangeOk (x : Exchange) : Prop where
  toServer : ∀ rxData, Possible x (.toServer rxData) → Wanted x.server.raw rxData
  toClient : ∀ rxData, Possible x (.toClient rxData) → Wanted x.client.raw rxData
  requests : x.server.stats.rstsReqCnt ≤ x.client.stats.rstsReqCnt ∧
    x.client.stats.rstsReqCnt ≤ x.server.stats.rstsReqCnt + 1
  responses : x.client.stats.rstsRespCnt ≤ x.server.stats.rstsRespCnt ∧
    x.server.stats.rstsRespCnt ≤ x.client.stats.rstsRespCnt + 1
  progress : ¬ (x.client.raw.raState = .receiving ∧ x.server.raw.raState = .receiving ∧
    x.toServer = 0 ∧ x.toClient = 0)

section Phases

variable {req resp : Nat}

/--
Whose turn it is.  A request is sent by the client, then in flight, and the response is sent by
the server, then in flight; `a` and `b` are the remaining counts.
-/
inductive Phase (req resp : Nat) : Exchange → Prop
  | request (a fly requests responses : Nat) (ha : 0 < a) (hmax : a + fly ≤ req) :
      Phase req resp
        ⟨⟨⟨req, resp, a, 0, .sending⟩, ⟨requests, responses⟩, true⟩,
          ⟨⟨resp, req, a + fly, 0, .receiving⟩, ⟨requests, responses⟩, false⟩, fly, 0⟩
  | requestSent (b requests responses : Nat) (hb : 0 < b) (hmax : b ≤ req) :
      Phase req resp
        ⟨⟨⟨req, resp, resp, 0, .receiving⟩, ⟨requests + 1, responses⟩, false⟩,
          ⟨⟨resp, req, b, 0, .receiving⟩, ⟨requests, responses⟩, false⟩, b, 0⟩
  | response (b fly requests responses : Nat) (hb : 0 < b) (hmax : b + fly ≤ resp) :
      Phase req resp
        ⟨⟨⟨req, resp, b + fly, 0, .receiving⟩, ⟨requests, responses⟩, false⟩,
          ⟨⟨resp, req, b, 0, .sending⟩, ⟨requests, responses⟩, true⟩, 0, fly⟩
  | responseSent (a requests responses : Nat) (ha : 0 < a) (hmax : a ≤ resp) :
      Phase req resp
        ⟨⟨⟨req, resp, a, 0, .receiving⟩, ⟨requests, responses⟩, false⟩,
          ⟨⟨resp, req, req, 0, .receiving⟩, ⟨requests, responses + 1⟩, false⟩, 0, a⟩

theorem Phase.ok
    {x : Exchange}
    (h : Phase req resp x) :
    ExchangeOk x := by
  cases h with
  | request a fly requests responses ha hmax =>
      constructor
      · intro rxData hlen
        exact .inr ⟨rfl, (show rxData.pktLen ≤ fly from hlen).trans (Nat.le_add_left _ _)⟩
      · intro rxData hlen
        exact .inl (Nat.le_zero.1 hlen)
      · exact ⟨le_rfl, Nat.le_succ _⟩
      · exact ⟨le_rfl, Nat.le_succ _⟩
      · rintro ⟨hclient, -⟩
        cases hclient
  | requestSent b requests responses hb hmax =>
      constructor
      · intro rxData hlen
        exact .inr ⟨rfl, hlen⟩
      · intro rxData hlen
        exact .inl (Nat.le_zero.1 hlen)
      · exact ⟨Nat.le_succ _, le_rfl⟩
      · exact ⟨le_rfl, Nat.le_succ _⟩
      · rintro ⟨-, -, hfly, -⟩
        exact hb.ne' hfly
  | response b fly requests responses hb hmax =>
      constructor
      · intro rxData hlen
        exact .inl (Nat.le_zero.1 hlen)
      · intro rxData hlen
        exact .inr ⟨rfl, (show rxData.pktLen ≤ fly from hlen).trans (Nat.le_add_left _ _)⟩
      · exact ⟨le_rfl, Nat.le_succ _⟩
      · exact ⟨le_rfl, Nat.le_succ _⟩
      · rintro ⟨-, hserver, -⟩
        cases hserver
  | responseSent a requests responses ha hmax =>
      constructor
      · intro rxData hlen
        exact .inl (Nat.le_zero.1 hlen)
      · intro rxData hlen
        exact .inr ⟨rfl, hlen⟩
      · exact ⟨le_rfl, Nat.le_succ _⟩
      · exact ⟨Nat.le_succ _, le_rfl⟩
      · rintro ⟨-, -, -, hfly⟩
        exact ha.ne' hfly

/-! ## The callbacks in each state -/

/-- A delivery that leaves a part of the message to come. -/
theorem rawDeliver_part
    {count : RawStats → RawStats} {reqSize respSize remaining : Nat} {stats : RawStats}
    {rxData : RxData}
    (hlen : rxData.pktLen < remaining) :
    rawDeliver count ⟨reqSize, respSize, remaining, 0, .receiving⟩ stats rxData =
      ⟨⟨reqSize, respSize, remaining - rxData.pktLen, 0, .receiving⟩, stats, rxData.pktLen,
        []⟩ := by
  have hleft : remaining - rxData.pktLen ≠ 0 := by omega
  simp [rawDeliver, rawDeliverData, RawApp.wantsTstamp, min_eq_left hlen.le, hleft]

/-- A delivery that ends the message: the other direction begins. -/
theorem rawDeliver_end
    {count : RawStats → RawStats} {reqSize respSize : Nat} {stats : RawStats} {rxData : RxData}
    (hreq : 0 < reqSize)
    (hresp : 0 < respSize) :
    rawDeliver count ⟨reqSize, respSize, rxData.pktLen, 0, .receiving⟩ stats rxData =
      ⟨⟨reqSize, respSize, reqSize, 0, .sending⟩, count stats, rxData.pktLen,
        [.appSendStart]⟩ := by
  simp [rawDeliver, rawDeliverData, RawApp.wantsTstamp, rawGotoState, hreq.ne', hresp.ne']

/-- No bytes at all, to an end that is sending. -/
theorem rawDeliver_none
    {count : RawStats → RawStats} {reqSize respSize remaining : Nat} {stats : RawStats}
    {rxData : RxData}
    (hremaining : 0 < remaining)
    (hlen : rxData.pktLen = 0) :
    rawDeliver count ⟨reqSize, respSize, remaining, 0, .sending⟩ stats rxData =
      ⟨⟨reqSize, respSize, remaining, 0, .sending⟩, stats, 0, []⟩ := by
  simp [rawDeliver, rawDeliverData, hremaining.ne', hlen]

theorem rawDataSent_eq
    {reqSize respSize remaining sent tstamp : Nat} {state : RawState}
    (hsent : sent ≤ remaining)
    (hmax : remaining < 2 ^ 16) :
    rawDataSent ⟨reqSize, respSize, remaining, tstamp, state⟩ sent =
      ⟨reqSize, respSize, remaining - sent, tstamp, state⟩ := by
  have hcount : (remaining + (2 ^ 16 - sent % 2 ^ 16)) % 2 ^ 16 = remaining - sent := by omega
  rw [rawDataSent, hcount]

/-! ## One step -/

/-- The client sends only while it is its turn. -/
theorem Phase.clientSend
    {x : Exchange} {maxTxSize accepted : Nat}
    (h : Phase req resp x)
    (hmax : req < 2 ^ 16)
    (hresp : 0 < resp)
    (hpossible : Possible x (.clientSend maxTxSize accepted)) :
    Phase req resp (x.clientSend accepted) := by
  by_cases hnone : accepted = 0
  · rwa [Exchange.clientSend, if_pos hnone]
  · rw [Exchange.clientSend, if_neg hnone]
    cases h with
    | request a fly requests responses ha hfly =>
        have haccepted : accepted ≤ a := hpossible.2.trans (min_le_left _ _)
        rw [rawClientDataSent, rawDataSent_eq haccepted (by omega)]
        by_cases hall : a - accepted = 0
        · -- the request is complete
          obtain rfl : accepted = a := by omega
          rw [Nat.sub_self, if_pos rfl, if_pos hresp.ne']
          have hnext := @Phase.requestSent req resp (accepted + fly) requests responses
            (by omega) hfly
          rwa [Nat.add_comm accepted fly] at hnext ⊢
        · rw [if_neg hall]
          have hnext := @Phase.request req resp (a - accepted) (fly + accepted) requests responses
            (Nat.pos_of_ne_zero hall) (by omega)
          rwa [show a - accepted + (fly + accepted) = a + fly by omega] at hnext
    | requestSent b requests responses hb hfly =>
        exact absurd hpossible.1 Bool.false_ne_true
    | response b fly requests responses hb hfly =>
        exact absurd hpossible.1 Bool.false_ne_true
    | responseSent a requests responses ha hfly =>
        exact absurd hpossible.1 Bool.false_ne_true

/-- The server sends only while it is its turn. -/
theorem Phase.serverSend
    {x : Exchange} {maxTxSize accepted : Nat}
    (h : Phase req resp x)
    (hmax : resp < 2 ^ 16)
    (hpossible : Possible x (.serverSend maxTxSize accepted)) :
    Phase req resp (x.serverSend accepted) := by
  by_cases hnone : accepted = 0
  · rwa [Exchange.serverSend, if_pos hnone]
  · rw [Exchange.serverSend, if_neg hnone]
    cases h with
    | request a fly requests responses ha hfly =>
        exact absurd hpossible.1 Bool.false_ne_true
    | requestSent b requests responses hb hfly =>
        exact absurd hpossible.1 Bool.false_ne_true
    | response b fly requests responses hb hfly =>
        have haccepted : accepted ≤ b := hpossible.2.trans (min_le_left _ _)
        rw [rawServerDataSent, rawDataSent_eq haccepted (by omega)]
        by_cases hall : b - accepted = 0
        · -- the response is complete
          obtain rfl : accepted = b := by omega
          rw [Nat.sub_self, if_pos rfl]
          have hnext := @Phase.responseSent req resp (accepted + fly) requests responses
            (by omega) hfly
          rwa [Nat.add_comm accepted fly] at hnext ⊢
        · rw [if_neg hall]
          have hnext := @Phase.response req resp (b - accepted) (fly + accepted) requests responses
            (Nat.pos_of_ne_zero hall) (by omega)
          rwa [show b - accepted + (fly + accepted) = b + fly by omega] at hnext
    | responseSent a requests responses ha hfly =>
        exact absurd hpossible.1 Bool.false_ne_true

theorem Phase.deliverToServer
    {x : Exchange} {rxData : RxData}
    (h : Phase req resp x)
    (hreq : 0 < req)
    (hresp : 0 < resp)
    (hpossible : Possible x (.toServer rxData)) :
    Phase req resp (x.deliverToServer rxData) := by
  cases h with
  | request a fly requests responses ha hfly =>
      have hlen : rxData.pktLen ≤ fly := hpossible
      rw [Exchange.deliverToServer, rawServerDeliverData, rawDeliver_part (by omega)]
      have hnext := @Phase.request req resp a (fly - rxData.pktLen) requests responses ha (by omega)
      rwa [show a + (fly - rxData.pktLen) = a + fly - rxData.pktLen by omega] at hnext
  | requestSent b requests responses hb hfly =>
      have hlen : rxData.pktLen ≤ b := hpossible
      rw [Exchange.deliverToServer, rawServerDeliverData]
      rcases hlen.lt_or_eq with hpart | rfl
      · rw [rawDeliver_part hpart]
        exact .requestSent (b - rxData.pktLen) requests responses (by omega) (by omega)
      · -- the last byte of the request
        rw [rawDeliver_end hresp hreq, Nat.sub_self]
        exact .response resp 0 (requests + 1) responses hresp le_rfl
  | response b fly requests responses hb hfly =>
      have hlen : rxData.pktLen = 0 := Nat.le_zero.1 hpossible
      rw [Exchange.deliverToServer, rawServerDeliverData, rawDeliver_none hb hlen]
      exact .response b fly requests responses hb hfly
  | responseSent a requests responses ha hfly =>
      have hlen : rxData.pktLen = 0 := Nat.le_zero.1 hpossible
      rw [Exchange.deliverToServer, rawServerDeliverData, rawDeliver_part (by omega), hlen]
      exact .responseSent a requests responses ha hfly

theorem Phase.deliverToClient
    {x : Exchange} {rxData : RxData}
    (h : Phase req resp x)
    (hreq : 0 < req)
    (hresp : 0 < resp)
    (hpossible : Possible x (.toClient rxData)) :
    Phase req resp (x.deliverToClient rxData) := by
  cases h with
  | request a fly requests responses ha hfly =>
      have hlen : rxData.pktLen = 0 := Nat.le_zero.1 hpossible
      rw [Exchange.deliverToClient, rawClientDeliverData, rawDeliver_none ha hlen]
      exact .request a fly requests responses ha hfly
  | requestSent b requests responses hb hfly =>
      have hlen : rxData.pktLen = 0 := Nat.le_zero.1 hpossible
      rw [Exchange.deliverToClient, rawClientDeliverData, rawDeliver_part (by omega), hlen]
      exact .requestSent b requests responses hb hfly
  | response b fly requests responses hb hfly =>
      have hlen : rxData.pktLen ≤ fly := hpossible
      rw [Exchange.deliverToClient, rawClientDeliverData, rawDeliver_part (by omega)]
      have hnext :=
        @Phase.response req resp b (fly - rxData.pktLen) requests responses hb (by omega)
      rwa [show b + (fly - rxData.pktLen) = b + fly - rxData.pktLen by omega] at hnext
  | responseSent a requests responses ha hfly =>
      have hlen : rxData.pktLen ≤ a := hpossible
      rw [Exchange.deliverToClient, rawClientDeliverData]
      rcases hlen.lt_or_eq with hpart | rfl
      · rw [rawDeliver_part hpart]
        exact .responseSent (a - rxData.pktLen) requests responses (by omega) (by omega)
      · -- the last byte of the response
        rw [rawDeliver_end hreq hresp, Nat.sub_self]
        exact .request req 0 requests (responses + 1) hreq le_rfl

theorem Phase.step
    {x : Exchange} {i : ExchangeInput}
    (h : Phase req resp x)
    (hreq : 1 ≤ req ∧ req ≤ 65535)
    (hresp : 1 ≤ resp ∧ resp ≤ 65535)
    (hpossible : Possible x i) :
    Phase req resp (exchangeStep x i) := by
  cases i with
  | clientSend maxTxSize accepted =>
      exact h.clientSend (by omega) hresp.1 hpossible
  | serverSend maxTxSize accepted =>
      exact h.serverSend (by omega) hpossible
  | toServer rxData =>
      exact h.deliverToServer hreq.1 hresp.1 hpossible
  | toClient rxData =>
      exact h.deliverToClient hreq.1 hresp.1 hpossible

end Phases

/-! ## Runs -/

section Runs

variable {rawC rawS : RawApp} {appRawClient : RawClient} {appRawServer : RawServer}

/-- A client and a server that agree on the sizes, without receive timestamps. -/
structure Matched (rawC rawS : RawApp) (appRawClient : RawClient) (appRawServer : RawServer) :
    Prop where
  request : appRawServer.rsReqPlen = appRawClient.rcReqPlen
  response : appRawServer.rsRespPlen = appRawClient.rcRespPlen
  requestSize : 1 ≤ appRawClient.rcReqPlen ∧ appRawClient.rcReqPlen ≤ 65535
  responseSize : 1 ≤ appRawClient.rcRespPlen ∧ appRawClient.rcRespPlen ≤ 65535
  clientTstamp : appRawClient.rcRxTstamp.bool = false ∧ rawC.raRxTstampSize = 0
  serverTstamp : appRawServer.rsRxTstamp.bool = false ∧ rawS.raRxTstampSize = 0

/-- The client begins. -/
theorem exchangeUp_phase
    (h : Matched rawC rawS appRawClient appRawServer) :
    Phase appRawClient.rcReqPlen appRawClient.rcRespPlen
      (exchangeUp rawC rawS appRawClient appRawServer) := by
  obtain ⟨hrequest, hresponse, hreq, hresp, hclient, hserver⟩ := h
  have hreqSize : appRawClient.rcReqPlen % 2 ^ 16 = appRawClient.rcReqPlen :=
    Nat.mod_eq_of_lt (by omega)
  have hrespSize : appRawClient.rcRespPlen % 2 ^ 16 = appRawClient.rcRespPlen :=
    Nat.mod_eq_of_lt (by omega)
  have hup : exchangeUp rawC rawS appRawClient appRawServer =
      ⟨⟨⟨appRawClient.rcReqPlen, appRawClient.rcRespPlen, appRawClient.rcReqPlen, 0, .sending⟩,
          ⟨0, 0⟩, true⟩,
        ⟨⟨appRawClient.rcRespPlen, appRawClient.rcReqPlen, appRawClient.rcReqPlen, 0, .receiving⟩,
          ⟨0, 0⟩, false⟩, 0, 0⟩ := by
    simp only [exchangeUp, rawClientConnUp, rawClientInit, rawServerConnUp, rawServerInit,
      rawConnInit, rawGotoState, hrequest, hresponse, hreqSize, hrespSize, hclient, hserver,
      Bool.false_eq_true, if_false, if_neg (Nat.ne_of_gt hreq.1)]
    rfl
  rw [hup]
  exact .request appRawClient.rcReqPlen 0 0 0 hreq.1 le_rfl

theorem exchange_phase
    {is : List ExchangeInput}
    (h : Matched rawC rawS appRawClient appRawServer)
    (hrun : Guarded exchangeStep Possible (exchangeUp rawC rawS appRawClient appRawServer) is) :
    Phase appRawClient.rcReqPlen appRawClient.rcRespPlen
      (run exchangeStep (exchangeUp rawC rawS appRawClient appRawServer) is) :=
  run_invariant (Phase appRawClient.rcReqPlen appRawClient.rcRespPlen)
    (fun _ _ hphase hpossible => hphase.step h.requestSize h.responseSize hpossible)
    (exchangeUp_phase h) hrun

/-- The protocol, for every interleaving of the two ends and every choice of the transport. -/
theorem exchange_ok
    {is : List ExchangeInput}
    (h : Matched rawC rawS appRawClient appRawServer)
    (hrun : Guarded exchangeStep Possible (exchangeUp rawC rawS appRawClient appRawServer) is) :
    ExchangeOk (run exchangeStep (exchangeUp rawC rawS appRawClient appRawServer) is) :=
  (exchange_phase h hrun).ok

/-- Requests of three bytes and responses of two, the first request in two parts. -/
theorem exchange_ok_three :
    ExchangeOk (run exchangeStep
      (exchangeUp ⟨0, 0, 0, 0, .sending⟩ ⟨0, 0, 0, 0, .sending⟩
        ⟨3, 2, ⟨false, false⟩, ⟨false, false⟩⟩ ⟨3, 2, ⟨false, false⟩, ⟨false, false⟩⟩)
      [.clientSend 1460 2, .toServer ⟨1, 0, none⟩, .clientSend 1460 1, .toServer ⟨2, 0, none⟩,
        .serverSend 1460 2]) :=
  exchange_ok ⟨rfl, rfl, by decide, by decide, by decide, by decide⟩
    ⟨⟨rfl, by decide⟩, (by decide : (1 : Nat) ≤ 2), ⟨rfl, by decide⟩, (by decide : (2 : Nat) ≤ 2),
      ⟨rfl, by decide⟩, trivial⟩

end Runs

end RawApplication
end Warp17
