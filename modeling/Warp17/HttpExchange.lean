import Warp17.MessageParsing
import Warp17.RawExchange
import Warp17.SendPointers

/-!
# An HTTP client and an HTTP server

The two ends of a connection (src/src/appl/tpg_test_http_1_1_app.c), coupled by an in-order byte
stream in each direction.  An end that wants to send is asked for data, as `test_case_run_send_cb`
does it (src/src/tpg_tests.c), and the transport accepts any part of what it is given.  The bytes
in flight arrive in pieces, each behind the bytes that were not consumed and in a chain of any
layout.

**Results**
- `Phase`: whose turn it is, in which round, and how much of the message the other end expects.
- `Phase.send`, `Phase.deliver`: one step of either kind.
- `httpExchange_ok`: the two ends stay in step in every run, and no message is refused.
- `httpExchange_goes_on`: every run can go on to the next response.
-/

namespace Warp17
namespace HttpExchange

open MbufChains HttpParser HttpDelivery SendPointers GuardedRuns ControlBlock MessageParsing
open MessageBuilding (HttpConfig MbufPool Memory strBytes)
open MessageWriting (Allocs PoolMbuf poolBytes)

/-! ## The two ends -/

def peerOf : HttpRole → HttpRole
  | .client => .server
  | .server => .client

/-- The session is in the queue of those that have data to send. -/
def wantsToSend (s : HttpSession) : Bool :=
  s.notifs.foldl RawApplication.notify false

/-- One turn of the loop of `test_case_run_send_cb`: the session, and the bytes that the transport
accepts of its data. -/
def sessionSend (role : HttpRole) (s : HttpSession) (allocs : Nat → Option Nat)
    (maxTxSize accepted : Nat) : HttpSession × List UInt8 :=
  let offered := httpSendData role s.app s.stats allocs maxTxSize
  let asked : HttpSession :=
    { s with
      app := offered.app
      stats := offered.stats
      notifs := s.notifs ++ offered.notifs }
  match (chainBytes offered.result).take accepted with
  | [] => (asked, [])
  | b :: bytes =>
      let out := httpDataSent role asked.app asked.stats (b :: bytes).length
      ({ asked with
         app := out.app
         stats := out.stats
         notifs := asked.notifs ++ out.notifs }, b :: bytes)

/-- The sessions, and the bytes in flight to each of them. -/
structure Exchange where
  ends : HttpRole → HttpSession
  fly : HttpRole → List UInt8

inductive ExchangeInput
  | send (role : HttpRole) (allocs : Nat → Option Nat) (maxTxSize accepted : Nat)
  | deliver (role : HttpRole) (piece : List UInt8) (rxData : Chain)

def Exchange.send (x : Exchange) (role : HttpRole) (allocs : Nat → Option Nat)
    (maxTxSize accepted : Nat) : Exchange :=
  let sent := sessionSend role (x.ends role) allocs maxTxSize accepted
  { ends := Function.update x.ends role sent.1
    fly := Function.update x.fly (peerOf role) (x.fly (peerOf role) ++ sent.2) }

def Exchange.deliver (storage : HttpRole → HttpStorage) (x : Exchange) (role : HttpRole)
    (piece : List UInt8) (rxData : Chain) : Exchange :=
  { ends := Function.update x.ends role ((x.ends role).deliver role (storage role) rxData)
    fly := Function.update x.fly role ((x.fly role).drop piece.length) }

def exchangeStep (storage : HttpRole → HttpStorage) (x : Exchange) : ExchangeInput → Exchange
  | .send role allocs maxTxSize accepted => x.send role allocs maxTxSize accepted
  | .deliver role piece rxData => x.deliver storage role piece rxData

/-- What can happen: an end that wants to send is asked for data, or the first of the bytes in
flight arrive. -/
def Possible (x : Exchange) : ExchangeInput → Prop
  | .send role _ _ _ => wantsToSend (x.ends role) = true
  | .deliver role piece rxData =>
      piece ≠ [] ∧ piece <+: x.fly role ∧ Lays rxData ((x.ends role).held ++ piece)

/-- The connection has come up. -/
def exchangeUp (storage : HttpRole → HttpStorage) (app : HttpRole → HttpApp) : Exchange where
  ends
    | .client =>
        let up := httpClientConnUp (app .client) (storage .client)
        ⟨up.1, ⟨0, 0, 0, 0, 0⟩, [], 0, up.2⟩
    | .server =>
        let up := httpServerConnUp (app .server)
        ⟨up.1, ⟨0, 0, 0, 0, 0⟩, [], 0, up.2⟩
  fly _ := []

/-- Nothing is refused, each message is counted at both ends, and there is always one under way. -/
structure ExchangeOk (x : Exchange) : Prop where
  accepted : ∀ role, (x.ends role).stats.hstsInvalidMsgCnt = 0 ∧
    (x.ends role).stats.hstsNoContentLenCnt = 0 ∧
    (x.ends role).stats.hstsTransferEncCnt = 0 ∧ .appClose ∉ (x.ends role).notifs
  requests : (x.ends .server).stats.hstsReqCnt ≤ (x.ends .client).stats.hstsReqCnt ∧
    (x.ends .client).stats.hstsReqCnt ≤ (x.ends .server).stats.hstsReqCnt + 1
  responses : (x.ends .client).stats.hstsRespCnt ≤ (x.ends .server).stats.hstsRespCnt ∧
    (x.ends .server).stats.hstsRespCnt ≤ (x.ends .client).stats.hstsRespCnt + 1
  answers : (x.ends .server).stats.hstsRespCnt ≤ (x.ends .server).stats.hstsReqCnt ∧
    (x.ends .client).stats.hstsReqCnt ≤ (x.ends .client).stats.hstsRespCnt + 1
  progress : ∃ role, wantsToSend (x.ends role) = true ∨ x.fly role ≠ []

/-! ## Sending and receiving one message -/

section Messages

/-- The end has sent `k` bytes of its message. -/
structure Sends (storage : HttpStorage) (role : HttpRole) (s : HttpSession) (k : Nat) : Prop where
  rounds : RoundsInv storage s.app k
  state : s.app.haState = role.sendState
  held : s.held = []
  wants : wantsToSend s = true

/-- The end has sent its message and waits. -/
structure Rests (role : HttpRole) (s : HttpSession) : Prop where
  ready : Ready role s.app
  held : s.held = []
  idle : wantsToSend s = false

/-- The end has to receive `more` of a message of `len` bytes. -/
structure Receives (role : HttpRole) (contentLength len : Nat) (s : HttpSession)
    (more : List UInt8) : Prop where
  expects : Expects role contentLength s more
  short : s.held.length + more.length ≤ len
  idle : wantsToSend s = false

/-- The bytes are a message with a body of this length. -/
def IsMessage (contentLength : Nat) (bytes : List UInt8) : Prop :=
  contentLength ≠ httpContentLengthInvalid ∧ ∃ header body, bytes = header ++ body ∧
    HeaderOf httpContentLengthInvalid header contentLength ∧ body.length = contentLength

variable {role : HttpRole} {storage : HttpStorage} {s : HttpSession} {k contentLength len : Nat}
variable {allocs : Nat → Option Nat} {maxTxSize accepted : Nat} {bytes piece more : List UInt8}
variable {rxData : Chain}

theorem wantsToSend_append
    (notifs : List TestNotif) :
    (s.notifs ++ notifs).foldl RawApplication.notify false =
      notifs.foldl RawApplication.notify (wantsToSend s) :=
  List.foldl_append

/-- What is offered to the transport: nothing, or the next bytes of the message. -/
theorem Sends.offered
    (hsends : Sends storage role s k) :
    (httpSendData role s.app s.stats allocs maxTxSize).app = s.app ∧
      (httpSendData role s.app s.stats allocs maxTxSize).stats = s.stats ∧
      (httpSendData role s.app s.stats allocs maxTxSize).notifs = [] ∧
      (chainBytes (httpSendData role s.app s.stats allocs maxTxSize).result = [] ∨
        chainBytes (httpSendData role s.app s.stats allocs maxTxSize).result =
          ((message storage).drop k).take maxTxSize) ∧
      ((∀ k, (allocs k).isSome = true) →
        chainBytes (httpSendData role s.app s.stats allocs maxTxSize).result =
          ((message storage).drop k).take maxTxSize) := by
  obtain ⟨c, offset, hptr, hpoints, -⟩ := hsends.rounds.ptr
  have hlt := message_lt storage
  have hlength : (chainFrom c offset).length = (message storage).length - k := by
    rw [hpoints.bytes, List.length_drop]
  have htake : (chainFrom c offset).take (min ((message storage).length - k) maxTxSize) =
      ((message storage).drop k).take maxTxSize := by
    rw [← hlength, ← hpoints.bytes, Nat.min_comm, ← List.take_take, List.take_length]
  have hlays : ∀ {parts}, cloneStatic allocs 0 c offset
      (min ((message storage).length - k) maxTxSize) = some parts →
      Lays (dataChainFromStaticChain allocs c offset
        (min ((message storage).length - k) maxTxSize)) _ := fun hclone =>
    dataChainFromStaticChain_lays (by omega) (by omega) hclone
  rw [httpSendData, if_pos hsends.state, hptr, ← htake]
  refine ⟨rfl, rfl, rfl, ?_, fun hallocs => ?_⟩
  · cases hclone : cloneStatic allocs 0 c offset (min ((message storage).length - k) maxTxSize) with
    | none =>
        left
        simp only [dataChainFromStaticChain_failed hclone, chainBytes_nil]
    | some parts =>
        exact Or.inr (hlays hclone).bytes_eq
  · obtain ⟨parts, hclone⟩ := cloneStatic_some hallocs c 0 offset
      (min ((message storage).length - k) maxTxSize)
    exact (hlays hclone).bytes_eq

/-- The transport accepts some of the bytes that are left. -/
theorem Sends.dataSent
    {count : Nat}
    (hsends : Sends storage role s k)
    (hcount : k + count ≤ (message storage).length) :
    (k + count = (message storage).length ∧
      Ready role (httpDataSent role s.app s.stats count).app ∧
      (httpDataSent role s.app s.stats count).stats = (role.countSent s.app s.stats).2 ∧
      (httpDataSent role s.app s.stats count).notifs = [.appSendStop]) ∨
    (k + count < (message storage).length ∧
      RoundsInv storage (httpDataSent role s.app s.stats count).app (k + count) ∧
      (httpDataSent role s.app s.stats count).app.haState = role.sendState ∧
      (httpDataSent role s.app s.stats count).stats = s.stats ∧
      (httpDataSent role s.app s.stats count).notifs = []) := by
  have hlt := message_lt storage
  have hleft : sub32 s.app.haContentLength count = (message storage).length - (k + count) := by
    rw [hsends.rounds.contentLength, sub32_of_le (by omega) (by omega), Nat.sub_sub]
  have hout : (httpDataSent role s.app s.stats count).stats =
        (if (message storage).length - (k + count) = 0 then (role.countSent s.app s.stats).2
          else s.stats) ∧
      (httpDataSent role s.app s.stats count).notifs =
        (if (message storage).length - (k + count) = 0 then [.appSendStop] else []) := by
    rw [httpDataSent, if_pos hsends.state, hleft]
    simp only
    split
    next =>
      refine ⟨?_, rfl⟩
      cases role <;> rfl
    next =>
      exact ⟨rfl, rfl⟩
  rcases hsends.rounds.dataSent s.stats hsends.state hcount with ⟨hall, -, hready⟩ | ⟨hinv, hstate⟩
  · rw [show (message storage).length - (k + count) = 0 by omega, if_pos rfl, if_pos rfl] at hout
    exact Or.inl ⟨hall, hready, hout⟩
  · have hmore := hinv.some_left
    rw [if_neg (by omega), if_neg (by omega)] at hout
    exact Or.inr ⟨hmore, hinv, hstate, hout⟩

/-- A session that was asked for data, and the bytes that were accepted. -/
inductive Sent (storage : HttpStorage) (role : HttpRole) (s : HttpSession) (k : Nat) :
    HttpSession × List UInt8 → Prop
  | none :
      Sent storage role s k (s, [])
  | part {t : HttpSession} {bytes : List UInt8}
      (hbytes : (message storage).drop k = bytes ++ (message storage).drop (k + bytes.length))
      (hsends : Sends storage role t (k + bytes.length)) (hstats : t.stats = s.stats)
      (hnotifs : t.notifs = s.notifs) :
      Sent storage role s k (t, bytes)
  | all {t : HttpSession} (hrests : Rests role t)
      (hstats : t.stats = (role.countSent s.app s.stats).2)
      (hnotifs : t.notifs = s.notifs ++ [.appSendStop]) :
      Sent storage role s k (t, (message storage).drop k)

theorem Sends.sent
    (hsends : Sends storage role s k) :
    Sent storage role s k (sessionSend role s allocs maxTxSize accepted) := by
  obtain ⟨happ, hstats, hnotifs, hoffered, -⟩ := @Sends.offered role storage s k allocs maxTxSize
    hsends
  have hpre : (chainBytes (httpSendData role s.app s.stats allocs maxTxSize).result).take accepted
      <+: (message storage).drop k := by
    refine (List.take_prefix _ _).trans ?_
    rcases hoffered with hnone | hsome
    · rw [hnone]
      exact List.nil_prefix
    · rw [hsome]
      exact List.take_prefix _ _
  simp only [sessionSend, happ, hstats, hnotifs, List.append_nil]
  split
  next =>
    exact Sent.none
  next b bytes hbytes =>
    rw [hbytes] at hpre
    obtain ⟨rest, hrest⟩ := hpre
    have hlength := congrArg List.length hrest
    rw [List.length_append, List.length_drop] at hlength
    have hpos : 0 < (b :: bytes).length := Nat.succ_pos _
    have hdrop : (message storage).drop (k + (b :: bytes).length) = rest := by
      rw [← List.drop_drop, ← hrest, List.drop_left]
    rcases hsends.dataSent (show k + (b :: bytes).length ≤ _ by omega) with
      ⟨hall, hready, hcounted, hstop⟩ | ⟨hmore, hrounds, hstate, hsame, hquiet⟩
    · obtain rfl : rest = [] := by
        rw [← hdrop]
        exact List.drop_of_length_le hall.ge
      rw [List.append_nil] at hrest
      rw [hrest] at hready hcounted hstop ⊢
      refine Sent.all ⟨hready, hsends.held, ?_⟩ hcounted (by rw [hstop])
      rw [wantsToSend, hstop, wantsToSend_append]
      rfl
    · refine Sent.part (by rw [hdrop, hrest]) ⟨hrounds, hstate, hsends.held, ?_⟩ hsame ?_
      · rw [wantsToSend, hquiet, List.append_nil]
        exact hsends.wants
      · rw [hquiet, List.append_nil]

/-- With an mbuf for each part and enough room, everything is sent at once. -/
theorem Sends.sent_all
    (hsends : Sends storage role s k)
    (hallocs : ∀ k, (allocs k).isSome = true)
    (htx : (message storage).length ≤ maxTxSize)
    (haccepted : (message storage).length ≤ accepted) :
    (sessionSend role s allocs maxTxSize accepted).2 = (message storage).drop k := by
  obtain ⟨-, -, -, -, hoffered⟩ := @Sends.offered role storage s k allocs maxTxSize hsends
  have hlength : ((message storage).drop k).length ≤ (message storage).length := by
    rw [List.length_drop]
    exact Nat.sub_le _ _
  have htake : (chainBytes (httpSendData role s.app s.stats allocs maxTxSize).result).take
      accepted = (message storage).drop k := by
    rw [hoffered hallocs, List.take_of_length_le (hlength.trans htx),
      List.take_of_length_le (hlength.trans haccepted)]
  simp only [sessionSend, htake]
  split <;> simp_all

/-- The session after the last byte of a message sends its own. -/
theorem sends_finished
    (hvalid : contentLength ≠ httpContentLengthInvalid) :
    Sends storage role (s.finished role storage contentLength piece) 0 ∧
      (s.finished role storage contentLength piece).stats = (role.countReceived s.app s.stats).2 ∧
      (s.finished role storage contentLength piece).notifs = s.notifs ++ [.appSendStart] := by
  rw [HttpSession.finished, if_neg hvalid]
  refine ⟨⟨roundsInv_gotoSend role _ storage, rfl, rfl, ?_⟩, rfl, rfl⟩
  rw [wantsToSend, wantsToSend_append]
  rfl

theorem countReceived_inj
    {app app' : HttpApp} {stats stats' : HttpStats}
    (heq : (role.countReceived app stats).2 = (role.countReceived app' stats').2) :
    stats = stats' := by
  cases role with
  | client =>
      simp only [HttpRole.countReceived, countResp, HttpStats.mk.injEq, Nat.add_left_inj] at heq
      cases stats
      cases stats'
      simpa using heq
  | server =>
      simp only [HttpRole.countReceived, countReq, HttpStats.mk.injEq, Nat.add_left_inj] at heq
      cases stats
      cases stats'
      simpa using heq

/-- One delivery: the message is complete, or the rest of it is expected and nothing was counted. -/
theorem Receives.deliver
    (storage : HttpStorage)
    (hreceives : Receives role contentLength len s (piece ++ more))
    (hvalid : contentLength ≠ httpContentLengthInvalid)
    (hdata : Lays rxData (s.held ++ piece)) :
    (more = [] ∧ s.deliver role storage rxData = s.finished role storage contentLength piece) ∨
    (more ≠ [] ∧ Receives role contentLength len (s.deliver role storage rxData) more ∧
      (s.deliver role storage rxData).stats = s.stats ∧
      (s.deliver role storage rxData).notifs = s.notifs) := by
  rcases hreceives.expects.step storage hdata with hdone | ⟨hrest, hsame⟩
  · exact Or.inl hdone
  · right
    -- what the end of the message will leave already shows what was left as it was
    simp only [HttpSession.finished, if_neg hvalid, HttpSession.mk.injEq] at hsame
    obtain ⟨-, hstats, -, hconsumed, hnotifs⟩ := hsame
    have hnotifs' := List.append_cancel_right hnotifs
    have hshort := hreceives.short
    have hgrows : s.consumed ≤ (s.deliver role storage rxData).consumed := Nat.le_add_right _ _
    rw [List.length_append] at hconsumed hshort
    refine ⟨hrest.ne_nil, ⟨hrest, by omega, ?_⟩, countReceived_inj hstats, hnotifs'⟩
    rw [wantsToSend, hnotifs']
    exact hreceives.idle

/-- An end that rests has to receive the whole of the next message. -/
theorem Rests.receives
    (hrests : Rests role s)
    (hmessage : IsMessage contentLength bytes) :
    Receives role contentLength bytes.length s bytes := by
  obtain ⟨hvalid, header, body, hsplit, hheader, hbody⟩ := hmessage
  refine ⟨hrests.ready.expects hrests.held hsplit hheader ?_, ?_, hrests.idle⟩
  · rwa [BodyOf, if_neg hvalid]
  · rw [hrests.held, List.length_nil, Nat.zero_add]

end Messages

/-! ## Whose turn it is -/

section Phases

/-- What the two test cases send, each of it a message to the other end. -/
structure Messages where
  storage : HttpRole → HttpStorage
  size : HttpRole → Nat
  isMessage : ∀ role, IsMessage (size role) (message (storage role))

/-- The statistics in round `n`, where `turn` has sent its message if `f` is 1. -/
def roundStats (turn : HttpRole) (n f : Nat) : HttpRole → HttpStats
  | .client =>
      match turn with
      | .client => ⟨n + f, n, 0, 0, 0⟩
      | .server => ⟨n + 1, n, 0, 0, 0⟩
  | .server =>
      match turn with
      | .client => ⟨n, n, 0, 0, 0⟩
      | .server => ⟨n + 1, n + f, 0, 0, 0⟩

/-- The round of the next turn. -/
def nextRound (turn : HttpRole) (n : Nat) : Nat :=
  match turn with
  | .client => n
  | .server => n + 1

/-- What both ends have counted and notified. -/
structure InRound (turn : HttpRole) (n f : Nat) (x : Exchange) : Prop where
  stats : ∀ role, (x.ends role).stats = roundStats turn n f role
  goesOn : ∀ role, .appClose ∉ (x.ends role).notifs
  quiet : x.fly turn = []

/-- One end sends its message, or it has sent it and the rest is in flight; the other end has to
receive what is in flight and what was not sent. -/
inductive Phase (msgs : Messages) (turn : HttpRole) (n : Nat) (x : Exchange) : Prop
  | sending {k : Nat} (hround : InRound turn n 0 x)
      (hsends : Sends (msgs.storage turn) turn (x.ends turn) k)
      (hpeer : Receives (peerOf turn) (msgs.size turn) (message (msgs.storage turn)).length
        (x.ends (peerOf turn))
        (x.fly (peerOf turn) ++ (message (msgs.storage turn)).drop k))
  | flying (hround : InRound turn n 1 x) (hrests : Rests turn (x.ends turn))
      (hpeer : Receives (peerOf turn) (msgs.size turn) (message (msgs.storage turn)).length
        (x.ends (peerOf turn)) (x.fly (peerOf turn)))

variable {msgs : Messages} {turn role : HttpRole} {n f : Nat} {x : Exchange}
variable {allocs : Nat → Option Nat} {maxTxSize accepted : Nat} {piece : List UInt8}
variable {rxData : Chain} {s : HttpSession}

theorem peerOf_ne
    (role : HttpRole) :
    peerOf role ≠ role := by
  cases role <;> exact HttpRole.noConfusion

theorem peerOf_peerOf
    (role : HttpRole) :
    peerOf (peerOf role) = role := by
  cases role <;> rfl

theorem eq_or_eq_peerOf
    (role turn : HttpRole) :
    role = turn ∨ role = peerOf turn := by
  cases role <;> cases turn <;> simp [peerOf]

theorem roundStats_sent
    (app : HttpApp) :
    (turn.countSent app (roundStats turn n 0 turn)).2 = roundStats turn n 1 turn ∧
      roundStats turn n 0 (peerOf turn) = roundStats turn n 1 (peerOf turn) := by
  cases turn <;> exact ⟨rfl, rfl⟩

theorem roundStats_received
    (app : HttpApp) :
    ((peerOf turn).countReceived app (roundStats turn n 1 (peerOf turn))).2 =
        roundStats (peerOf turn) (nextRound turn n) 0 (peerOf turn) ∧
      roundStats turn n 1 turn = roundStats (peerOf turn) (nextRound turn n) 0 turn := by
  cases turn <;> exact ⟨rfl, rfl⟩

theorem Phase.inRound
    (hphase : Phase msgs turn n x) :
    ∃ f ≤ 1, InRound turn n f x := by
  cases hphase with
  | sending hround hsends hpeer => exact ⟨0, zero_le_one, hround⟩
  | flying hround hrests hpeer => exact ⟨1, le_rfl, hround⟩

theorem Phase.peer_idle
    (hphase : Phase msgs turn n x) :
    wantsToSend (x.ends (peerOf turn)) = false := by
  cases hphase with
  | sending hround hsends hpeer => exact hpeer.idle
  | flying hround hrests hpeer => exact hpeer.idle

/-- Nothing is in flight to the end whose turn it is, whatever is sent to the other one. -/
theorem InRound.quiet_update
    (hround : InRound turn n f x)
    (bytes : List UInt8) :
    Function.update x.fly (peerOf turn) bytes turn = [] := by
  rw [Function.update_of_ne (peerOf_ne turn).symm, hround.quiet]

/-- One end changes. -/
theorem InRound.update
    {turn' : HttpRole} {n' f' : Nat} {fly' : HttpRole → List UInt8}
    (hround : InRound turn n f x)
    (hstats : s.stats = roundStats turn' n' f' role)
    (hother : roundStats turn n f (peerOf role) = roundStats turn' n' f' (peerOf role))
    (hgoesOn : .appClose ∉ s.notifs)
    (hquiet : fly' turn' = []) :
    InRound turn' n' f' ⟨Function.update x.ends role s, fly'⟩ := by
  refine ⟨fun e => ?_, fun e => ?_, hquiet⟩
  · rcases eq_or_eq_peerOf e role with rfl | rfl
    · simp only [Function.update_self]
      exact hstats
    · simp only [Function.update_of_ne (peerOf_ne role)]
      exact (hround.stats _).trans hother
  · rcases eq_or_eq_peerOf e role with rfl | rfl
    · simp only [Function.update_self]
      exact hgoesOn
    · simp only [Function.update_of_ne (peerOf_ne role)]
      exact hround.goesOn _

/-- The rest of the message is handed over. -/
theorem sentAll
    {k : Nat}
    (hround : InRound turn n 0 x)
    (hpeer : Receives (peerOf turn) (msgs.size turn) (message (msgs.storage turn)).length
      (x.ends (peerOf turn)) (x.fly (peerOf turn) ++ (message (msgs.storage turn)).drop k))
    (hrests : Rests turn s)
    (hstats : s.stats = (turn.countSent (x.ends turn).app (x.ends turn).stats).2)
    (hnotifs : s.notifs = (x.ends turn).notifs ++ [.appSendStop]) :
    let y : Exchange := ⟨Function.update x.ends turn s, Function.update x.fly (peerOf turn)
      (x.fly (peerOf turn) ++ (message (msgs.storage turn)).drop k)⟩
    InRound turn n 1 y ∧ Rests turn (y.ends turn) ∧
      Receives (peerOf turn) (msgs.size turn) (message (msgs.storage turn)).length
        (y.ends (peerOf turn)) (y.fly (peerOf turn)) := by
  have hne := peerOf_ne turn
  obtain ⟨hcounted, hother⟩ := @roundStats_sent turn n (x.ends turn).app
  refine ⟨hround.update ?_ hother ?_ (hround.quiet_update _), ?_, ?_⟩
  · rw [hstats, hround.stats, hcounted]
  · rw [hnotifs]
    simpa using hround.goesOn turn
  · simp only [Function.update_self]
    exact hrests
  · simp only [Function.update_of_ne hne, Function.update_self]
    exact hpeer

/-- An end that is asked for data has the turn, and goes on sending or rests. -/
theorem Phase.send
    (hphase : Phase msgs turn n x)
    (hwants : wantsToSend (x.ends role) = true) :
    Phase msgs turn n (x.send role allocs maxTxSize accepted) := by
  rcases eq_or_eq_peerOf role turn with rfl | rfl
  · cases hphase with
    | flying hround hrests hpeer =>
        rw [hrests.idle] at hwants
        cases hwants
    | @sending k hround hsends hpeer =>
        have hne := peerOf_ne role
        have hgoesOn := hround.goesOn role
        have hsent := @Sends.sent role (msgs.storage role) (x.ends role) k allocs maxTxSize
          accepted hsends
        rw [Exchange.send]
        generalize sessionSend role (x.ends role) allocs maxTxSize accepted = sent at hsent
        cases hsent with
        | none =>
            rw [Function.update_eq_self, List.append_nil, Function.update_eq_self]
            exact Phase.sending hround hsends hpeer
        | @part t bytes hbytes hsends' hstats hnotifs =>
            refine Phase.sending (k := k + bytes.length)
              (hround.update ?_ rfl ?_ (hround.quiet_update _)) ?_ ?_
            · rw [hstats, hround.stats]
            · rwa [hnotifs]
            · simp only [Function.update_self]
              exact hsends'
            · simp only [Function.update_of_ne hne, Function.update_self]
              rw [List.append_assoc, ← hbytes]
              exact hpeer
        | @all t hrests hstats hnotifs =>
            obtain ⟨hround', hrests', hpeer'⟩ := sentAll hround hpeer hrests hstats hnotifs
            exact Phase.flying hround' hrests' hpeer'
  · rw [hphase.peer_idle] at hwants
    cases hwants

/-- A delivery goes to the end that has not the turn; with the last byte of the message it gets
the turn. -/
theorem Phase.deliver
    (hphase : Phase msgs turn n x)
    (hpossible : Possible x (.deliver role piece rxData)) :
    Phase msgs turn n (x.deliver msgs.storage role piece rxData) ∨
      role = peerOf turn ∧ x.fly role = piece ∧
        Phase msgs (peerOf turn) (nextRound turn n) (x.deliver msgs.storage role piece rxData) := by
  obtain ⟨hpiece, ⟨rest, hfly⟩, hdata⟩ := hpossible
  have hvalid := (msgs.isMessage turn).1
  have hdrop : (x.fly role).drop piece.length = rest := by
    rw [← hfly, List.drop_left]
  obtain ⟨f, -, hround⟩ := hphase.inRound
  obtain rfl : role = peerOf turn := by
    rcases eq_or_eq_peerOf role turn with rfl | hpeer
    · rw [hround.quiet] at hfly
      exact absurd (List.append_eq_nil_iff.1 hfly).1 hpiece
    · exact hpeer
  have hne := peerOf_ne turn
  rw [Exchange.deliver, hdrop]
  cases hphase with
  | @sending k hround hsends hpeer =>
      left
      rw [← hfly, List.append_assoc] at hpeer
      have hunsent : (message (msgs.storage turn)).drop k ≠ [] := by
        have hleft := hsends.rounds.some_left
        rw [ne_eq, List.drop_eq_nil_iff]
        omega
      rcases hpeer.deliver (msgs.storage (peerOf turn)) hvalid hdata with
        ⟨hnil, -⟩ | ⟨-, hrest, hstats, hnotifs⟩
      · exact absurd (List.append_eq_nil_iff.1 hnil).2 hunsent
      · refine Phase.sending (hround.update ?_ ?_ ?_ (hround.quiet_update _)) (k := k) ?_ ?_
        · rw [hstats, hround.stats]
        · rfl
        · rw [hnotifs]
          exact hround.goesOn _
        · simp only [Function.update_of_ne hne.symm]
          exact hsends
        · simp only [Function.update_self]
          exact hrest
  | flying hround hrests hpeer =>
      rw [← hfly] at hpeer
      rcases hpeer.deliver (msgs.storage (peerOf turn)) hvalid hdata with
        ⟨rfl, hdone⟩ | ⟨-, hrest, hstats, hnotifs⟩
      · right
        obtain ⟨hsends, hstats, hnotifs⟩ := @sends_finished (peerOf turn)
          (msgs.storage (peerOf turn)) (x.ends (peerOf turn)) (msgs.size turn) piece hvalid
        obtain ⟨hcounted, hother⟩ := @roundStats_received turn n (x.ends (peerOf turn)).app
        rw [List.append_nil] at hfly
        refine ⟨rfl, hfly.symm, ?_⟩
        rw [hdone]
        refine Phase.sending (hround.update ?_ ?_ ?_ ?_) (k := 0) ?_ ?_
        · rw [hstats, hround.stats, hcounted]
        · rw [peerOf_peerOf, hother]
        · rw [hnotifs]
          simpa using hround.goesOn (peerOf turn)
        · rw [Function.update_self]
        · simp only [Function.update_self]
          exact hsends
        · simp only [peerOf_peerOf, Function.update_of_ne hne.symm]
          rw [hround.quiet, List.nil_append, List.drop_zero]
          exact hrests.receives (msgs.isMessage (peerOf turn))
      · left
        refine Phase.flying (hround.update ?_ ?_ ?_ (hround.quiet_update _)) ?_ ?_
        · rw [hstats, hround.stats]
        · rfl
        · rw [hnotifs]
          exact hround.goesOn _
        · simp only [Function.update_of_ne hne.symm]
          exact hrests
        · simp only [Function.update_self]
          exact hrest

theorem roundStats_accepted
    (turn role : HttpRole) (n f : Nat) :
    (roundStats turn n f role).hstsInvalidMsgCnt = 0 ∧
      (roundStats turn n f role).hstsNoContentLenCnt = 0 ∧
      (roundStats turn n f role).hstsTransferEncCnt = 0 := by
  cases role <;> cases turn <;> exact ⟨rfl, rfl, rfl⟩

/-- The phase of an exchange says all that has to hold. -/
theorem Phase.ok
    (hphase : Phase msgs turn n x) :
    ExchangeOk x := by
  obtain ⟨f, hf, hround⟩ := hphase.inRound
  have hclient := hround.stats .client
  have hserver := hround.stats .server
  constructor
  · intro role
    obtain ⟨hinvalid, hnoLength, htransferEnc⟩ := roundStats_accepted turn role n f
    rw [hround.stats]
    exact ⟨hinvalid, hnoLength, htransferEnc, hround.goesOn role⟩
  · rw [hclient, hserver]
    cases turn <;> simp only [roundStats] <;> omega
  · rw [hclient, hserver]
    cases turn <;> simp only [roundStats] <;> omega
  · rw [hclient, hserver]
    cases turn <;> simp only [roundStats] <;> omega
  · cases hphase with
    | sending hround hsends hpeer => exact ⟨turn, Or.inl hsends.wants⟩
    | flying hround hrests hpeer => exact ⟨peerOf turn, Or.inr hpeer.expects.ne_nil⟩

theorem Phase.step
    {i : ExchangeInput}
    (hphase : Phase msgs turn n x)
    (hpossible : Possible x i) :
    ∃ turn' n', Phase msgs turn' n' (exchangeStep msgs.storage x i) := by
  cases i with
  | send role allocs maxTxSize accepted =>
      exact ⟨turn, n, hphase.send hpossible⟩
  | deliver role piece rxData =>
      rcases hphase.deliver hpossible with hsame | ⟨-, -, hnext⟩
      · exact ⟨turn, n, hsame⟩
      · exact ⟨peerOf turn, nextRound turn n, hnext⟩

/-- A message that is in flight can arrive at once, and the turn changes. -/
theorem Phase.arrives
    (hround : InRound turn n 1 x)
    (hrests : Rests turn (x.ends turn))
    (hpeer : Receives (peerOf turn) (msgs.size turn) (message (msgs.storage turn)).length
      (x.ends (peerOf turn)) (x.fly (peerOf turn))) :
    ∃ i, Possible x i ∧
      Phase msgs (peerOf turn) (nextRound turn n) (exchangeStep msgs.storage x i) := by
  have hshort := hpeer.short.trans_lt (message_lt _)
  rw [← List.length_append] at hshort
  have hpossible : Possible x (.deliver (peerOf turn) (x.fly (peerOf turn))
      (ContentLengths.oneMbuf ((x.ends (peerOf turn)).held ++ x.fly (peerOf turn)))) :=
    ⟨hpeer.expects.ne_nil, List.prefix_rfl, ContentLengths.lays_oneMbuf hshort⟩
  refine ⟨_, hpossible, ?_⟩
  rcases (Phase.flying hround hrests hpeer).deliver hpossible with hsame | ⟨-, -, hnext⟩
  · -- nothing is left in flight, and the end that has sent does not send
    exfalso
    have hne := peerOf_ne turn
    rw [Exchange.deliver] at hsame
    cases hsame with
    | sending hround' hsends' hpeer' =>
        have hwants := hsends'.wants
        simp only [Function.update_of_ne hne.symm] at hwants
        rw [hrests.idle] at hwants
        cases hwants
    | flying hround' hrests' hpeer' =>
        refine hpeer'.expects.ne_nil ?_
        simp only [Function.update_self, List.drop_length]
  · exact hnext

/-- All that is left of a message can be sent at once. -/
theorem Phase.sends_all
    {k : Nat}
    (hround : InRound turn n 0 x)
    (hsends : Sends (msgs.storage turn) turn (x.ends turn) k)
    (hpeer : Receives (peerOf turn) (msgs.size turn) (message (msgs.storage turn)).length
      (x.ends (peerOf turn))
      (x.fly (peerOf turn) ++ (message (msgs.storage turn)).drop k)) :
    ∃ y, exchangeStep msgs.storage x (.send turn some (message (msgs.storage turn)).length
        (message (msgs.storage turn)).length) = y ∧
      InRound turn n 1 y ∧ Rests turn (y.ends turn) ∧
      Receives (peerOf turn) (msgs.size turn) (message (msgs.storage turn)).length
        (y.ends (peerOf turn)) (y.fly (peerOf turn)) := by
  have hleft := hsends.rounds.some_left
  have hsent := @Sends.sent turn (msgs.storage turn) (x.ends turn) k some
    (message (msgs.storage turn)).length (message (msgs.storage turn)).length hsends
  have hall := hsends.sent_all (fun _ => rfl : ∀ k, (some k).isSome = true) le_rfl le_rfl
  refine ⟨_, rfl, ?_⟩
  rw [exchangeStep, Exchange.send]
  generalize sessionSend turn (x.ends turn) some (message (msgs.storage turn)).length
    (message (msgs.storage turn)).length = sent at hsent hall
  cases hsent with
  | none =>
      have hlength := congrArg List.length hall
      rw [List.length_nil, List.length_drop] at hlength
      omega
  | part hbytes hsends' hstats hnotifs =>
      have hlength := congrArg List.length hall
      have hmore := hsends'.rounds.some_left
      simp only [List.length_drop] at hlength
      omega
  | @all t hrests hstats hnotifs =>
      exact sentAll hround hpeer hrests hstats hnotifs

/-- From any phase the turn can change. -/
theorem Phase.turn_ends
    (hphase : Phase msgs turn n x) :
    ∃ is, Guarded (exchangeStep msgs.storage) Possible x is ∧
      Phase msgs (peerOf turn) (nextRound turn n) (run (exchangeStep msgs.storage) x is) := by
  cases hphase with
  | flying hround hrests hpeer =>
      obtain ⟨i, hpossible, hnext⟩ := Phase.arrives hround hrests hpeer
      exact ⟨[i], ⟨hpossible, trivial⟩, hnext⟩
  | sending hround hsends hpeer =>
      obtain ⟨y, hy, hround', hrests', hpeer'⟩ := Phase.sends_all hround hsends hpeer
      obtain ⟨i, hpossible, hnext⟩ := Phase.arrives hround' hrests' hpeer'
      refine ⟨[.send turn some (message (msgs.storage turn)).length
        (message (msgs.storage turn)).length, i], ⟨hsends.wants, ?_, trivial⟩, ?_⟩
      · rw [hy]
        exact hpossible
      · rw [run_cons, hy]
        exact hnext

/-- The number of the round is what the client has counted. -/
theorem Phase.respCnt
    (hphase : Phase msgs turn n x) :
    (x.ends .client).stats.hstsRespCnt = n := by
  obtain ⟨f, -, hround⟩ := hphase.inRound
  rw [hround.stats]
  cases turn <;> rfl

/-- From any phase the client can count one more response. -/
theorem Phase.response
    (hphase : Phase msgs turn n x) :
    ∃ is, Guarded (exchangeStep msgs.storage) Possible x is ∧
      (∃ turn' n', Phase msgs turn' n' (run (exchangeStep msgs.storage) x is)) ∧
      ((run (exchangeStep msgs.storage) x is).ends .client).stats.hstsRespCnt =
        (x.ends .client).stats.hstsRespCnt + 1 := by
  obtain ⟨is, hrun, hnext⟩ := hphase.turn_ends
  cases turn with
  | server =>
      exact ⟨is, hrun, ⟨_, _, hnext⟩, by rw [hnext.respCnt, hphase.respCnt, nextRound]⟩
  | client =>
      -- the server answers the request first
      obtain ⟨js, hrun', hnext'⟩ := hnext.turn_ends
      refine ⟨is ++ js, (guarded_append _ _ _).2 ⟨hrun, hrun'⟩, ?_⟩
      rw [run_append]
      exact ⟨⟨_, _, hnext'⟩, by rw [hnext'.respCnt, hphase.respCnt]; rfl⟩

end Phases

/-! ## Runs -/

section Runs

variable {client : TestCaseConfig.HttpClient} {server : TestCaseConfig.HttpServer}
variable {storage : HttpRole → HttpStorage} {app : HttpRole → HttpApp} {is : List ExchangeInput}

def configOf (client : TestCaseConfig.HttpClient) (server : TestCaseConfig.HttpServer) :
    HttpRole → HttpConfig
  | .client => .client client
  | .server => .server server

/-- The two test cases: their configurations were accepted, the texts keep the lines of a header,
and what is sent was built from them. -/
structure Configured (client : TestCaseConfig.HttpClient) (server : TestCaseConfig.HttpServer)
    (storage : HttpRole → HttpStorage) : Prop where
  valid : ∀ role, validateCfg (configOf client server role) = true
  plain : ∀ role, PlainTexts (configOf client server role)
  fields : ∀ role, ∀ line ∈ linesOf (strBytes (fieldsText (configOf client server role))),
    FieldLine line
  built : ∀ role, ∃ (pool : MbufPool) (allocs : Allocs) (memory : Memory) (c : List PoolMbuf),
    (configOf client server role).build pool.toPool allocs memory false = some ⟨none, .chain c⟩ ∧
      (storage role).httpMbuf = c.map PoolMbuf.toMbuf

theorem Configured.isMessage
    (hconf : Configured client server storage)
    (role : HttpRole) :
    IsMessage (configOf client server role).size (message (storage role)) := by
  obtain ⟨pool, allocs, memory, c, hrun, hmbuf⟩ := hconf.built role
  obtain ⟨body, hbytes, hlength⟩ := complete_of_build hrun
  have hmessage : message (storage role) = poolBytes c := by
    rw [message, hmbuf]
    simp [chainBytes, poolBytes, List.flatMap_map]
  have hvalid := hconf.valid role
  rcases @headerThen_header _ body (configOf client server role).size body hvalid
    (hconf.plain role) with ⟨-, hiff⟩ | ⟨hnot, -⟩
  · obtain ⟨h, hsplit, hheader⟩ := hiff.2 ⟨rfl, rfl⟩
    exact ⟨(validateCfg_spec hvalid).1.ne, h, body, by rw [hmessage, hbytes, hsplit], hheader,
      hlength⟩
  · exact absurd (hconf.fields role) hnot

/-- The messages of the two test cases. -/
def messagesOf (hconf : Configured client server storage) : Messages :=
  ⟨storage, fun role => (configOf client server role).size, hconf.isMessage⟩

/-- The client begins. -/
theorem exchangeUp_phase
    (msgs : Messages) (app : HttpRole → HttpApp) :
    Phase msgs .client 0 (exchangeUp msgs.storage app) := by
  have hserver : Rests .server ((exchangeUp msgs.storage app).ends .server) :=
    ⟨⟨rfl, rfl, rfl⟩, rfl, rfl⟩
  refine Phase.sending (k := 0) ⟨fun role => ?_, fun role => ?_, rfl⟩
    ⟨roundsInv_gotoSend .client _ _, rfl, rfl, rfl⟩ ?_
  · cases role <;> rfl
  · cases role <;> simp [exchangeUp, httpClientConnUp, httpClientGotoSendReq, httpServerConnUp]
  · exact hserver.receives (msgs.isMessage .client)

theorem exchange_phase
    (msgs : Messages) (app : HttpRole → HttpApp)
    (hrun : Guarded (exchangeStep msgs.storage) Possible (exchangeUp msgs.storage app) is) :
    ∃ turn n, Phase msgs turn n
      (run (exchangeStep msgs.storage) (exchangeUp msgs.storage app) is) :=
  run_invariant (fun x => ∃ turn n, Phase msgs turn n x)
    (fun _ _ ⟨_, _, hphase⟩ hpossible => hphase.step hpossible)
    ⟨.client, 0, exchangeUp_phase msgs app⟩ hrun

/--
In every run of a client and a server, whatever the transport accepts and however the bytes
arrive, no message is refused, each request and each response is counted at both ends, and one of
them is always under way.
-/
theorem httpExchange_ok
    (hconf : Configured client server storage)
    (hrun : Guarded (exchangeStep storage) Possible (exchangeUp storage app) is) :
    ExchangeOk (run (exchangeStep storage) (exchangeUp storage app) is) := by
  obtain ⟨turn, n, hphase⟩ := exchange_phase (messagesOf hconf) app hrun
  exact hphase.ok

/-- Every run can go on to any number of further responses. -/
theorem httpExchange_goes_on
    (hconf : Configured client server storage)
    (hrun : Guarded (exchangeStep storage) Possible (exchangeUp storage app) is)
    (m : Nat) :
    ∃ js, Guarded (exchangeStep storage) Possible (exchangeUp storage app) (is ++ js) ∧
      ((run (exchangeStep storage) (exchangeUp storage app) (is ++ js)).ends
          .client).stats.hstsRespCnt =
        ((run (exchangeStep storage) (exchangeUp storage app) is).ends
          .client).stats.hstsRespCnt + m := by
  induction m with
  | zero =>
      exact ⟨[], by rwa [List.append_nil], by rw [List.append_nil, Nat.add_zero]⟩
  | succ m ih =>
      obtain ⟨js, hrun', hcount⟩ := ih
      obtain ⟨turn, n, hphase⟩ := exchange_phase (messagesOf hconf) app hrun'
      obtain ⟨ks, hmore, -, hone⟩ := hphase.response
      refine ⟨js ++ ks, ?_, ?_⟩
      · rw [← List.append_assoc]
        exact (guarded_append _ _ _).2 ⟨hrun', hmore⟩
      · rw [← List.append_assoc, run_append, ← Nat.add_assoc, ← hcount]
        exact hone

/-- A request and a response without a body, with the default names and fields. -/
def plainClient : TestCaseConfig.HttpClient :=
  ⟨.get, none, none, 0, none⟩

def plainServer : TestCaseConfig.HttpServer :=
  ⟨.ok200, 0, none⟩

theorem plain_configured :
    ∃ storage, Configured plainClient plainServer storage := by
  have hbuilt : ∀ role, ∃ c, (configOf plainClient plainServer role).build
      MessageBuilding.defaultMbufPool.toPool some (fun _ _ => 0) false =
        some ⟨none, .chain c⟩ := by
    intro role
    refine exists_built _ ⟨rfl, ?_⟩ ?_
    · cases role <;> decide +kernel
    · cases role <;> decide
  have hstorage : ∀ role, ∃ storage : HttpStorage, ∃ c,
      (configOf plainClient plainServer role).build
        MessageBuilding.defaultMbufPool.toPool some (fun _ _ => 0) false =
          some ⟨none, .chain c⟩ ∧ storage.httpMbuf = c.map PoolMbuf.toMbuf := by
    intro role
    obtain ⟨c, hrun⟩ := hbuilt role
    obtain ⟨storage, hmbuf⟩ := MessageBuilding.httpBuildPkt_storage hrun (by
      cases role <;> decide +kernel)
    exact ⟨storage, c, hrun, hmbuf⟩
  choose storage chain hrun hmbuf using hstorage
  refine ⟨storage, fun role => ?_, fun role => ⟨?_, ?_⟩, fun role => ?_, fun role => ?_⟩
  · cases role <;> decide
  · cases role <;> decide
  · cases role <;> exact singleBytes_of_all (by decide)
  · cases role <;> decide
  · exact ⟨_, _, _, chain role, hrun role, hmbuf role⟩

/-- A run in which the request arrives, is answered, and the response arrives. -/
theorem httpExchange_ok_response :
    ∃ storage is,
      Guarded (exchangeStep storage) Possible
          (exchangeUp storage fun _ => ⟨.recv 7, 0, 0, 0, .closed⟩) is ∧
        ((run (exchangeStep storage) (exchangeUp storage fun _ => ⟨.recv 7, 0, 0, 0, .closed⟩)
          is).ends .client).stats.hstsRespCnt = 1 ∧
        ExchangeOk (run (exchangeStep storage)
          (exchangeUp storage fun _ => ⟨.recv 7, 0, 0, 0, .closed⟩) is) := by
  obtain ⟨storage, hconf⟩ := plain_configured
  obtain ⟨is, hrun, -, hcount⟩ :=
    (exchangeUp_phase (messagesOf hconf) fun _ => ⟨.recv 7, 0, 0, 0, .closed⟩).response
  exact ⟨storage, is, hrun, hcount, httpExchange_ok hconf hrun⟩

/-- A thousand responses after it. -/
theorem httpExchange_goes_on_request :
    ∃ storage js, ((run (exchangeStep storage)
      (exchangeUp storage fun _ => ⟨.recv 7, 0, 0, 0, .closed⟩)
        ([.send .client some 1460 1460] ++ js)).ends .client).stats.hstsRespCnt =
      ((run (exchangeStep storage) (exchangeUp storage fun _ => ⟨.recv 7, 0, 0, 0, .closed⟩)
        [.send .client some 1460 1460]).ends .client).stats.hstsRespCnt + 1000 := by
  obtain ⟨storage, hconf⟩ := plain_configured
  have hrun : Guarded (exchangeStep storage) Possible
      (exchangeUp storage fun _ => ⟨.recv 7, 0, 0, 0, .closed⟩)
      [.send .client some 1460 1460] :=
    ⟨rfl, trivial⟩
  obtain ⟨js, -, hcount⟩ := httpExchange_goes_on hconf hrun 1000
  exact ⟨storage, js, hcount⟩

end Runs

end HttpExchange
end Warp17
