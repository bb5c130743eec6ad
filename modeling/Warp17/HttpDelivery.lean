import Warp17.ControlBlock
import Warp17.HttpParser

/-!
# HTTP messages in pieces

The callbacks of src/src/appl/tpg_test_http_1_1_app.c that receive and send messages.  TCP delivers
the bytes of a message in pieces, each in a chain of mbufs with any layout; what a delivery does
not consume is presented again in front of the bytes of the next one.

The client and the server differ in the names of their states, in what they count, and in that a
server takes a header without a content length for one with an empty body.

**Results**
- `Waits.ready`: wherever a session begins to wait for a message, the field that the send pointer
  shares with the scan offset is zero.
- `Expects.step`: one delivery completes the message or leaves a session that expects the rest.
- `deliveries_eq_single`: every way of delivering a message ends as its delivery in one piece.
-/

namespace Warp17
namespace HttpDelivery

open ControlBlock MbufChains HttpParser

/-- The request or the response that a test case sends, as `http_build_*_pkt` leaves it. -/
structure HttpStorage where
  httpMbuf : Chain
  nonempty : httpMbuf ≠ []
  holdsData : ∀ m ∈ httpMbuf, m.data ≠ []
  pktLen : (chainPktLen httpMbuf).toNat = (chainBytes httpMbuf).length

inductive HttpRole
  | client
  | server
deriving DecidableEq, Repr

/-- What a callback leaves: the session, the statistics, its result and the notifications. -/
structure HttpOutcome (α : Type) where
  app : HttpApp
  stats : HttpStats
  result : α
  notifs : List TestNotif
deriving DecidableEq, Repr

/-! ## Roles -/

def HttpRole.hdrState : HttpRole → HttpState
  | .client => .clParseRespHdr
  | .server => .srvParseReqHdr

def HttpRole.bodyState : HttpRole → HttpState
  | .client => .clRecvRespBody
  | .server => .srvRecvReqBody

def HttpRole.sendState : HttpRole → HttpState
  | .client => .clSendReq
  | .server => .srvSendResp

/-- The 16-bit counter of the session and the statistic of requests. -/
def countReq (app : HttpApp) (stats : HttpStats) : HttpApp × HttpStats :=
  ({ app with haReqCnt := (app.haReqCnt + 1) % 2 ^ 16 },
    { stats with hstsReqCnt := stats.hstsReqCnt + 1 })

def countResp (app : HttpApp) (stats : HttpStats) : HttpApp × HttpStats :=
  ({ app with haRespCnt := (app.haRespCnt + 1) % 2 ^ 16 },
    { stats with hstsRespCnt := stats.hstsRespCnt + 1 })

def HttpRole.countReceived : HttpRole → HttpApp → HttpStats → HttpApp × HttpStats
  | .client => countResp
  | .server => countReq

def HttpRole.countSent : HttpRole → HttpApp → HttpStats → HttpApp × HttpStats
  | .client => countReq
  | .server => countResp

/-! ## Sending -/

/-- `http_client_goto_send_req` and `http_server_goto_send_resp`, with `APP_SEND_PTR_INIT`. -/
def httpGotoSend (role : HttpRole) (app : HttpApp) (storage : HttpStorage) : HttpApp :=
  let pktLen := (chainPktLen storage.httpMbuf).toNat
  { app with
    haState := role.sendState
    haPtr := .send storage.httpMbuf 0 pktLen
    haContentLength := pktLen }

def httpClientGotoSendReq (app : HttpApp) (storage : HttpStorage) : HttpApp × List TestNotif :=
  (httpGotoSend .client app storage, [.appSendStart])

def httpServerGotoSendResp (app : HttpApp) (storage : HttpStorage) : HttpApp × List TestNotif :=
  (httpGotoSend .server app storage, [.appSendStart])

def httpGotoRecvHeaders (app : HttpApp) (state : HttpState) : HttpApp :=
  { app with
    haState := state
    haContentLength := httpContentLengthInvalid }

def httpGotoRecvBody (app : HttpApp) (state : HttpState) : HttpApp :=
  { app with haState := state }

def httpClientConnUp (app : HttpApp) (storage : HttpStorage) : HttpApp × List TestNotif :=
  httpClientGotoSendReq { app with haPtr := .recv 0 } storage

def httpServerConnUp (app : HttpApp) : HttpApp × List TestNotif :=
  (httpGotoRecvHeaders { app with haPtr := .recv 0 } .srvParseReqHdr, [])

/-- A 32-bit `-=`. -/
def sub32 (a b : Nat) : Nat :=
  (a + 2 ^ 32 - b) % 2 ^ 32

/-- A null pointer is not followed. -/
def appSendPtrAdvance (ptr : HttpPtr) (count : Nat) : HttpPtr :=
  match ptr with
  | .recv scanOffset => .recv scanOffset
  | .send [] dataOffset dataLen => .send [] dataOffset (sub32 dataLen count)
  | .send (m :: rest) dataOffset dataLen =>
      let firstElemSize := m.data.length - dataOffset
      if dataOffset ≠ 0 ∧ count < firstElemSize then
        .send (m :: rest) (dataOffset + count) (sub32 dataLen count)
      else if dataOffset ≠ 0 ∧ count = firstElemSize then
        .send rest 0 (sub32 dataLen count)
      else
        let left := if dataOffset ≠ 0 then skipMbufs rest (count - firstElemSize)
          else skipMbufs (m :: rest) count
        .send left.1 left.2 (sub32 dataLen count)

/-- `http_client_data_sent` and `http_server_data_sent`. -/
def httpDataSent (role : HttpRole) (app : HttpApp) (stats : HttpStats) (bytesSent : Nat) :
    HttpOutcome Bool :=
  if app.haState = role.sendState then
    let app := { app with
      haPtr := appSendPtrAdvance app.haPtr bytesSent
      haContentLength := sub32 app.haContentLength bytesSent }
    if app.haContentLength = 0 then
      let counted := role.countSent app stats
      ⟨httpGotoRecvHeaders counted.1 role.hdrState, counted.2, true, [.appSendStop]⟩
    else ⟨app, stats, false, []⟩
  else
    ⟨app, { stats with hstsInvalidMsgCnt := stats.hstsInvalidMsgCnt + 1 }, true, [.appClose]⟩

def httpClientDataSent (app : HttpApp) (stats : HttpStats) (bytesSent : Nat) : HttpOutcome Bool :=
  httpDataSent .client app stats bytesSent

def httpServerDataSent (app : HttpApp) (stats : HttpStats) (bytesSent : Nat) : HttpOutcome Bool :=
  httpDataSent .server app stats bytesSent

/-! ## Receiving -/

/-- The session, `*delivered` and the result. -/
def httpConsumeBody (app : HttpApp) (rxData : Chain) (offset delivered : Nat) :
    HttpApp × Nat × Bool :=
  let consumed := (chainPktLen rxData).toNat - offset
  -- everything is consumed, also what is past the content length
  let contentLength := app.haContentLength - min consumed app.haContentLength
  ({ app with haContentLength := contentLength }, delivered + consumed, contentLength = 0)

/-- The end of the callbacks, in the state that receives a body. -/
def httpRecvBody (role : HttpRole) (app : HttpApp) (storage : HttpStorage) (stats : HttpStats)
    (rxData : Chain) (delivered : Nat) : HttpOutcome Nat :=
  match httpConsumeBody app rxData delivered delivered with
  | (app, delivered, true) =>
      let counted := role.countReceived app stats
      ⟨httpGotoSend role counted.1 storage, counted.2, delivered, [.appSendStart]⟩
  | (app, delivered, false) => ⟨app, stats, delivered, []⟩

/-- A header without a content length: the client closes, the server takes the body as empty. -/
def httpNoContentLength (role : HttpRole) (app : HttpApp) (storage : HttpStorage)
    (stats : HttpStats) (delivered : Nat) : HttpOutcome Nat :=
  let stats := { stats with hstsNoContentLenCnt := stats.hstsNoContentLenCnt + 1 }
  match role with
  | .client => ⟨app, stats, 0, [.appClose]⟩
  | .server =>
      ⟨httpGotoSend .server { app with haContentLength := 0 } storage, stats, delivered,
        [.appSendStart]⟩

def httpDeliverData (role : HttpRole) (app : HttpApp) (storage : HttpStorage) (stats : HttpStats)
    (rxData : Chain) : HttpOutcome Nat :=
  if app.haState = role.hdrState then
    let hdr := httpParseHdr app stats rxData 0
    if hdr.invalid then
      ⟨hdr.app, { hdr.stats with hstsInvalidMsgCnt := hdr.stats.hstsInvalidMsgCnt + 1 }, 0,
        [.appClose]⟩
    else if !hdr.headerDone then ⟨hdr.app, hdr.stats, hdr.delivered, []⟩
    else if hdr.app.haContentLength = httpContentLengthInvalid then
      httpNoContentLength role hdr.app storage hdr.stats hdr.delivered
    else
      let app := httpGotoRecvBody hdr.app role.bodyState
      if app.haContentLength ≠ 0 ∧ hdr.delivered = (chainPktLen rxData).toNat then
        ⟨app, hdr.stats, hdr.delivered, []⟩
      else
        httpRecvBody role app storage hdr.stats rxData hdr.delivered
  else if app.haState = role.bodyState then
    httpRecvBody role app storage stats rxData 0
  else
    ⟨app, { stats with hstsInvalidMsgCnt := stats.hstsInvalidMsgCnt + 1 }, 0, [.appClose]⟩

def httpClientDeliverData (app : HttpApp) (storage : HttpStorage) (stats : HttpStats)
    (rxData : Chain) : HttpOutcome Nat :=
  httpDeliverData .client app storage stats rxData

def httpServerDeliverData (app : HttpApp) (storage : HttpStorage) (stats : HttpStats)
    (rxData : Chain) : HttpOutcome Nat :=
  httpDeliverData .server app storage stats rxData

/-! ## Beginning to wait for a message -/

section Waiting

/-- `left` bytes remain from the offset in the first mbuf on. -/
structure SendsFrom (c : Chain) (offset left : Nat) : Prop where
  length : (chainFrom c offset).length = left
  holdsData : ∀ m ∈ c, m.data ≠ []
  inside : ∀ m ∈ c.head?, offset < m.data.length

/-- The states in which a session sends its message. -/
inductive Sending (role : HttpRole) (storage : HttpStorage) : HttpApp → Prop
  | start (app : HttpApp) :
      Sending role storage (httpGotoSend role app storage)
  | sent {app : HttpApp} {stats : HttpStats} {bytesSent : Nat} (happ : Sending role storage app)
      (hbytes : bytesSent ≤ app.haContentLength)
      (hmore : (httpDataSent role app stats bytesSent).result = false) :
      Sending role storage (httpDataSent role app stats bytesSent).app

/-- The states in which a session begins to wait for a message. -/
inductive Waits (storage : HttpStorage) : HttpRole → HttpApp → Prop
  | connUp (app : HttpApp) :
      Waits storage .server (httpServerConnUp app).1
  | sent {role : HttpRole} {app : HttpApp} {stats : HttpStats} {bytesSent : Nat}
      (happ : Sending role storage app) (hbytes : bytesSent ≤ app.haContentLength)
      (hdone : (httpDataSent role app stats bytesSent).result = true) :
      Waits storage role (httpDataSent role app stats bytesSent).app

/-- Ready for the first byte of a message. -/
structure Ready (role : HttpRole) (app : HttpApp) : Prop where
  state : app.haState = role.hdrState
  contentLength : app.haContentLength = httpContentLengthInvalid
  scanOffset : app.haPtr.scanOffset = 0

/-- The invariant of sending: the pointer stands where the bytes that remain begin. -/
structure SendInv (role : HttpRole) (app : HttpApp) : Prop where
  state : app.haState = role.sendState
  lt : app.haContentLength < 2 ^ 32
  ptr : ∃ c offset len, app.haPtr = .send c offset len ∧ SendsFrom c offset app.haContentLength

theorem sub32_of_le
    {a b : Nat}
    (hle : b ≤ a)
    (hlt : a < 2 ^ 32) :
    sub32 a b = a - b := by
  unfold sub32
  omega

/-- By induction on the mbufs that are skipped. -/
theorem sendsFrom_skipMbufs
    {c : Chain} {count : Nat}
    (hdata : ∀ m ∈ c, m.data ≠ [])
    (hcount : count ≤ (chainBytes c).length) :
    SendsFrom (skipMbufs c count).1 (skipMbufs c count).2 ((chainBytes c).length - count) := by
  induction c generalizing count with
  | nil =>
      refine ⟨?_, by simp [skipMbufs], by simp [skipMbufs]⟩
      simp [skipMbufs, chainFrom]
  | cons m rest ih =>
      have hm := List.length_pos_iff.2 (hdata m (by simp))
      rw [chainBytes_cons, List.length_append] at hcount ⊢
      rw [skipMbufs]
      split
      next hskip =>
        have hrest := @ih (count - m.data.length) (fun n hn => hdata n (by simp [hn])) (by omega)
        rwa [show m.data.length + (chainBytes rest).length - count =
          (chainBytes rest).length - (count - m.data.length) by omega]
      next hstop =>
        refine ⟨?_, hdata, ?_⟩
        · simp only [chainFrom, List.length_append, List.length_drop]
          omega
        · simp only [List.head?_cons, Option.mem_def, Option.some.injEq]
          rintro _ rfl
          omega

theorem SendsFrom.nil
    {c : Chain} {offset : Nat}
    (hsends : SendsFrom c offset 0) :
    c = [] := by
  cases c with
  | nil =>
      rfl
  | cons m rest =>
      have hinside := hsends.inside m rfl
      have hlength := hsends.length
      simp only [chainFrom, List.length_append, List.length_drop] at hlength
      omega

/-- Sending moves the pointer over what was sent. -/
theorem appSendPtrAdvance_spec
    {c : Chain} {offset len left count : Nat}
    (hsends : SendsFrom c offset left)
    (hcount : count ≤ left) :
    ∃ c' offset' len', appSendPtrAdvance (.send c offset len) count = .send c' offset' len' ∧
      SendsFrom c' offset' (left - count) := by
  cases c with
  | nil =>
      have hleft := hsends.length
      simp only [chainFrom, List.length_nil] at hleft
      exact ⟨[], offset, _, rfl, by simp [chainFrom]; omega, by simp, by simp⟩
  | cons m rest =>
      have hinside := hsends.inside m rfl
      have hlength := hsends.length
      have hrest : ∀ n ∈ rest, n.data ≠ [] := fun n hn => hsends.holdsData n (by simp [hn])
      simp only [chainFrom, List.length_append, List.length_drop] at hlength
      rw [appSendPtrAdvance]
      split
      next hwithin =>
        refine ⟨_, _, _, rfl, ?_, hsends.holdsData, ?_⟩
        · simp only [chainFrom, List.length_append, List.length_drop]
          omega
        · simp only [List.head?_cons, Option.mem_def, Option.some.injEq]
          rintro _ rfl
          omega
      next hnot =>
        split
        next hexact =>
          refine ⟨_, _, _, rfl, ?_, hrest, ?_⟩
          · rw [chainFrom_zero]
            omega
          · intro n hn
            exact List.length_pos_iff.2 (hrest n (List.mem_of_mem_head? hn))
        next =>
          refine ⟨_, _, _, rfl, ?_⟩
          split
          next hoffset =>
            have hskip := @sendsFrom_skipMbufs rest (count - (m.data.length - offset)) hrest
              (by omega)
            rwa [show left - count =
              (chainBytes rest).length - (count - (m.data.length - offset)) by omega]
          next hoffset =>
            obtain rfl : offset = 0 := by omega
            have hskip := @sendsFrom_skipMbufs (m :: rest) count hsends.holdsData
              (by rw [chainBytes_cons, List.length_append]; omega)
            rw [chainBytes_cons, List.length_append] at hskip
            rwa [show left - count =
              m.data.length + (chainBytes rest).length - count by omega]

theorem sendInv_gotoSend
    (role : HttpRole) (app : HttpApp) (storage : HttpStorage) :
    SendInv role (httpGotoSend role app storage) := by
  refine ⟨rfl, BitVec.isLt _, _, _, _, rfl, ?_, storage.holdsData, ?_⟩
  · rw [chainFrom_zero]
    exact storage.pktLen.symm
  · intro m hm
    exact List.length_pos_iff.2 (storage.holdsData m (List.mem_of_mem_head? hm))

/-- What `data_sent` does to a session that sends. -/
theorem SendInv.dataSent
    {role : HttpRole} {app : HttpApp} {bytesSent : Nat}
    (hinv : SendInv role app)
    (stats : HttpStats)
    (hbytes : bytesSent ≤ app.haContentLength) :
    (bytesSent = app.haContentLength ∧
      (httpDataSent role app stats bytesSent).result = true ∧
      Ready role (httpDataSent role app stats bytesSent).app) ∨
    ((httpDataSent role app stats bytesSent).result = false ∧
      SendInv role (httpDataSent role app stats bytesSent).app) := by
  obtain ⟨c, offset, len, hptr, hsends⟩ := hinv.ptr
  obtain ⟨c', offset', len', hadvance, hsends'⟩ := appSendPtrAdvance_spec hsends hbytes
  have hsub := sub32_of_le hbytes hinv.lt
  rw [httpDataSent, if_pos hinv.state, hptr, hadvance, hsub]
  rcases Nat.eq_zero_or_pos (app.haContentLength - bytesSent) with hzero | hpos
  · left
    rw [hzero] at hsends' ⊢
    obtain rfl := hsends'.nil
    refine ⟨by omega, by rw [if_pos rfl], ?_⟩
    rw [if_pos rfl]
    cases role <;> exact ⟨rfl, rfl, rfl⟩
  · right
    rw [if_neg (by simp only; omega)]
    refine ⟨rfl, hinv.state, ?_, c', offset', len', rfl, hsends'⟩
    have hlt := hinv.lt
    simp only
    omega

theorem Sending.inv
    {role : HttpRole} {storage : HttpStorage} {app : HttpApp}
    (hsending : Sending role storage app) :
    SendInv role app := by
  induction hsending with
  | start app =>
      exact sendInv_gotoSend role app storage
  | sent happ hbytes hmore ih =>
      rcases ih.dataSent _ hbytes with ⟨-, hdone, -⟩ | ⟨-, hinv⟩
      · rw [hmore] at hdone
        cases hdone
      · exact hinv

/-- The send pointer of a message that was sent is null, so a scan begins at offset zero. -/
theorem Waits.ready
    {role : HttpRole} {storage : HttpStorage} {app : HttpApp}
    (hwaits : Waits storage role app) :
    Ready role app := by
  cases hwaits with
  | connUp app =>
      exact ⟨rfl, rfl, rfl⟩
  | sent happ hbytes hdone =>
      rcases happ.inv.dataSent _ hbytes with ⟨-, -, hready⟩ | ⟨hmore, -⟩
      · exact hready
      · rw [hmore] at hdone
        cases hdone

end Waiting

/-! ## Messages -/

section Messages

/-- A session with TCP: the bytes it did not consume, and what it has consumed and notified. -/
structure HttpSession where
  app : HttpApp
  stats : HttpStats
  held : List UInt8
  consumed : Nat
  notifs : List TestNotif
deriving DecidableEq, Repr

/-- One delivery. -/
def HttpSession.deliver (role : HttpRole) (storage : HttpStorage) (s : HttpSession)
    (rxData : Chain) : HttpSession :=
  let out := httpDeliverData role s.app storage s.stats rxData
  { app := out.app
    stats := out.stats
    held := (chainBytes rxData).drop out.result
    consumed := s.consumed + out.result
    notifs := s.notifs ++ out.notifs }

/--
The bytes arrive in pieces, each delivered behind the bytes that were not consumed and in a chain
of any layout.
-/
inductive Deliveries (role : HttpRole) (storage : HttpStorage) :
    HttpSession → List UInt8 → HttpSession → Prop
  | nil (s : HttpSession) :
      Deliveries role storage s [] s
  | cons {s t : HttpSession} {rxData : Chain} {piece more : List UInt8} (hpiece : piece ≠ [])
      (hdata : Lays rxData (s.held ++ piece))
      (hrest : Deliveries role storage (s.deliver role storage rxData) more t) :
      Deliveries role storage s (piece ++ more) t

/-- A body of the declared length; only a server does without a declaration. -/
def BodyOf (role : HttpRole) (contentLength : Nat) (body : List UInt8) : Prop :=
  if contentLength = httpContentLengthInvalid then role = .server ∧ body = []
  else body.length = contentLength

/-- The bytes are one complete message that the application accepts. -/
def HttpMessage (role : HttpRole) (bytes : List UInt8) : Prop :=
  ∃ header body contentLength, bytes = header ++ body ∧
    HeaderOf httpContentLengthInvalid header contentLength ∧ BodyOf role contentLength body

/-- The session after a message of this content length whose last bytes are `more`. -/
def HttpSession.finished (role : HttpRole) (storage : HttpStorage) (contentLength : Nat)
    (s : HttpSession) (more : List UInt8) : HttpSession :=
  let counted :=
    if contentLength = httpContentLengthInvalid then
      (s.app, { s.stats with hstsNoContentLenCnt := s.stats.hstsNoContentLenCnt + 1 })
    else role.countReceived s.app s.stats
  { app := httpGotoSend role counted.1 storage
    stats := counted.2
    held := []
    consumed := s.consumed + s.held.length + more.length
    notifs := s.notifs ++ [.appSendStart] }

/-- A message of this content length is being received, and `more` of it is still to come. -/
inductive Expects (role : HttpRole) (contentLength : Nat) : HttpSession → List UInt8 → Prop
  | header {s : HttpSession} {more h body : List UInt8} (hstate : s.app.haState = role.hdrState)
      (hscan : Scanned s.app s.held) (hsplit : s.held ++ more = h ++ body)
      (hopen : s.held.length < h.length)
      (hheader : HeaderOf s.app.haContentLength h contentLength)
      (hbody : BodyOf role contentLength body) :
      Expects role contentLength s more
  | body {s : HttpSession} {more : List UInt8} (hstate : s.app.haState = role.bodyState)
      (hheld : s.held = []) (hmore : more ≠ []) (hlength : s.app.haContentLength = more.length)
      (hvalid : contentLength ≠ httpContentLengthInvalid) :
      Expects role contentLength s more

/-- The counters of two sessions agree. -/
def SameCounts (a b : HttpApp) : Prop :=
  a.haReqCnt = b.haReqCnt ∧ a.haRespCnt = b.haRespCnt

theorem gotoSend_congr
    {a b : HttpApp}
    (role : HttpRole) (storage : HttpStorage)
    (hsame : SameCounts a b) :
    httpGotoSend role a storage = httpGotoSend role b storage := by
  simp only [httpGotoSend, HttpApp.mk.injEq, and_true, true_and]
  exact hsame

theorem countReceived_congr
    {a b : HttpApp}
    (role : HttpRole) (stats : HttpStats)
    (hsame : SameCounts a b) :
    SameCounts (role.countReceived a stats).1 (role.countReceived b stats).1 ∧
      (role.countReceived a stats).2 = (role.countReceived b stats).2 := by
  cases role with
  | client =>
      exact ⟨⟨hsame.1, congrArg (fun n => (n + 1) % 2 ^ 16) hsame.2⟩, rfl⟩
  | server =>
      exact ⟨⟨congrArg (fun n => (n + 1) % 2 ^ 16) hsame.1, hsame.2⟩, rfl⟩

theorem finished_congr
    {s t : HttpSession} {more rest : List UInt8}
    (role : HttpRole) (storage : HttpStorage) (contentLength : Nat)
    (happ : SameCounts s.app t.app)
    (hstats : s.stats = t.stats)
    (hnotifs : s.notifs = t.notifs)
    (hconsumed : s.consumed + s.held.length + more.length =
      t.consumed + t.held.length + rest.length) :
    s.finished role storage contentLength more = t.finished role storage contentLength rest := by
  obtain ⟨hcounts, hcounted⟩ := countReceived_congr role s.stats happ
  rw [HttpSession.finished, HttpSession.finished, hconsumed, hnotifs, ← hstats]
  split
  · rw [gotoSend_congr role storage happ]
  · rw [gotoSend_congr role storage hcounts, hcounted]

theorem httpRecvBody_spec
    {app : HttpApp} {rxData : Chain} {delivered r k : Nat}
    (role : HttpRole) (storage : HttpStorage) (stats : HttpStats)
    (hpkt : (chainPktLen rxData).toNat = delivered + r)
    (hlength : app.haContentLength = r + k) :
    httpRecvBody role app storage stats rxData delivered =
      if k = 0 then
        ⟨httpGotoSend role (role.countReceived app stats).1 storage,
          (role.countReceived app stats).2, delivered + r, [.appSendStart]⟩
      else ⟨{ app with haContentLength := k }, stats, delivered + r, []⟩ := by
  have hconsumed : delivered + r - delivered = r := by
    omega
  have hleft : r + k - min r (r + k) = k := by
    omega
  rw [httpRecvBody, httpConsumeBody, hpkt, hlength, hconsumed, hleft]
  rcases Nat.eq_zero_or_pos k with rfl | hk
  · obtain ⟨hcounts, hcounted⟩ := countReceived_congr (a := { app with haContentLength := 0 })
      (b := app) role stats ⟨rfl, rfl⟩
    simp only [decide_true, if_true]
    rw [gotoSend_congr role storage hcounts, hcounted]
  · rw [if_neg (by omega)]
    simp only [show (k = 0) = False from eq_false (by omega), decide_false]

theorem bodyState_ne_hdrState
    (role : HttpRole) :
    role.bodyState ≠ role.hdrState := by
  cases role <;> decide

variable {role : HttpRole} {storage : HttpStorage} {contentLength : Nat} {s : HttpSession}
  {rxData : Chain} {piece more : List UInt8}

/-- The delivery completes the message, or the session expects the rest. -/
def Steps (role : HttpRole) (storage : HttpStorage) (contentLength : Nat) (s s' : HttpSession)
    (piece more : List UInt8) : Prop :=
  (more = [] ∧ s' = s.finished role storage contentLength piece) ∨
    (Expects role contentLength s' more ∧
      s'.finished role storage contentLength more =
        s.finished role storage contentLength (piece ++ more))

/-- The delivery ends with bytes of the body. -/
theorem steps_recvBody
    {app : HttpApp} {delivered r : Nat}
    (hdata : Lays rxData (s.held ++ piece))
    (hout : httpDeliverData role s.app storage s.stats rxData =
      httpRecvBody role app storage s.stats rxData delivered)
    (hsame : SameCounts app s.app)
    (hstate : app.haState = role.bodyState)
    (hcut : s.held.length + piece.length = delivered + r)
    (hlength : app.haContentLength = r + more.length)
    (hvalid : contentLength ≠ httpContentLengthInvalid) :
    Steps role storage contentLength s (s.deliver role storage rxData) piece more := by
  have hpkt : (chainPktLen rxData).toNat = delivered + r := by
    rw [hdata.pktLen, List.length_append, hcut]
  have hheld : (chainBytes rxData).drop (delivered + r) = [] := by
    rw [hdata.bytes_eq, List.drop_eq_nil_iff, List.length_append, hcut]
  rw [Steps, HttpSession.deliver, hout, httpRecvBody_spec role storage s.stats hpkt hlength]
  rcases eq_or_ne more [] with rfl | hmore
  · left
    obtain ⟨hcounts, hcounted⟩ := countReceived_congr role s.stats hsame
    refine ⟨rfl, ?_⟩
    rw [List.length_nil, if_pos rfl, HttpSession.finished, if_neg hvalid, Nat.add_assoc, hcut,
      gotoSend_congr role storage hcounts, hcounted]
    simp only [hheld]
  · right
    have hpos := List.length_pos_iff.2 hmore
    rw [if_neg (by omega)]
    refine ⟨Expects.body hstate hheld hmore rfl hvalid, ?_⟩
    refine finished_congr role storage contentLength hsame rfl (by simp) ?_
    simp only [hheld, List.length_nil, List.length_append]
    omega

/-- A delivery in front of the end of the header. -/
theorem steps_header_part
    {h m body : List UInt8}
    (hdata : Lays rxData (s.held ++ piece))
    (hstate : s.app.haState = role.hdrState)
    (hscan : Scanned s.app s.held)
    (hheader : HeaderOf s.app.haContentLength h contentLength)
    (hbody : BodyOf role contentLength body)
    (hh : h = (s.held ++ piece) ++ m)
    (hm : m ≠ [])
    (hmore : more = m ++ body) :
    Steps role storage contentLength s (s.deliver role storage rxData) piece more := by
  obtain ⟨d, ptr, len, hloop, hkept, hleft, hd⟩ :=
    @httpParseHdrLoop_incomplete s.app rxData (s.held ++ piece) s.held 0 s.stats 0 _ _ _ _
      hheader hdata hscan (List.prefix_append _ _) (Nat.zero_le _) rfl hh hm
  rw [Nat.zero_add] at hkept hleft hd
  have hpos := List.length_pos_iff.2 hm
  have hout : httpDeliverData role s.app storage s.stats rxData =
      ⟨{ s.app with
         haPtr := ptr
         haContentLength := len }, s.stats, d, []⟩ := by
    rw [httpDeliverData, if_pos hstate, httpParseHdr, hloop]
    simp
  right
  rw [HttpSession.deliver, hout, hdata.bytes_eq]
  refine ⟨Expects.header hstate hkept ?_ ?_ hleft hbody, ?_⟩
  · rw [hmore, List.append_assoc]
  · simp only [List.length_append]
    omega
  · refine finished_congr role storage contentLength ⟨rfl, rfl⟩ rfl (by simp) ?_
    simp only [List.length_drop, List.length_append] at hd ⊢
    omega

/-- A delivery with the end of the header. -/
theorem steps_header_end
    {h r body : List UInt8}
    (hdata : Lays rxData (s.held ++ piece))
    (hstate : s.app.haState = role.hdrState)
    (hscan : Scanned s.app s.held)
    (hheader : HeaderOf s.app.haContentLength h contentLength)
    (hbody : BodyOf role contentLength body)
    (hcut : s.held ++ piece = h ++ r)
    (hsplit : body = r ++ more) :
    Steps role storage contentLength s (s.deliver role storage rxData) piece more := by
  have hloop := @httpParseHdrLoop_complete s.app rxData (s.held ++ piece) s.held 0 s.stats 0 _ _ _ r
    hheader hdata hscan (List.prefix_append _ _) rfl hcut
  have hlength := congrArg List.length hcut
  rw [List.length_append, List.length_append] at hlength
  rw [Nat.zero_add] at hloop
  by_cases hvalid : contentLength = httpContentLengthInvalid
  · -- only a server gets here, and the message ends with the header
    rw [BodyOf, if_pos hvalid] at hbody
    obtain ⟨rfl, rfl⟩ := hbody
    obtain ⟨rfl, rfl⟩ := List.append_eq_nil_iff.1 hsplit.symm
    have hout : httpDeliverData .server s.app storage s.stats rxData =
        ⟨httpGotoSend .server s.app storage,
          { s.stats with hstsNoContentLenCnt := s.stats.hstsNoContentLenCnt + 1 }, h.length,
          [.appSendStart]⟩ := by
      rw [httpDeliverData, if_pos hstate, httpParseHdr, hloop]
      simp only [Bool.false_eq_true, if_false, Bool.not_true, if_pos hvalid]
      rfl
    left
    refine ⟨rfl, ?_⟩
    rw [HttpSession.deliver, hout, HttpSession.finished, if_pos hvalid, hdata.bytes_eq, hcut,
      List.append_nil, List.drop_length, Nat.add_assoc, hlength]
    rfl
  · rw [BodyOf, if_neg hvalid, hsplit, List.length_append] at hbody
    have hout : httpDeliverData role s.app storage s.stats rxData =
        if contentLength ≠ 0 ∧ h.length = (chainPktLen rxData).toNat then
          ⟨{ s.app with
             haState := role.bodyState
             haPtr := .recv 0
             haContentLength := contentLength }, s.stats, h.length, []⟩
        else
          httpRecvBody role
            { s.app with
              haState := role.bodyState
              haPtr := .recv 0
              haContentLength := contentLength } storage s.stats rxData h.length := by
      rw [httpDeliverData, if_pos hstate, httpParseHdr, hloop]
      simp only [Bool.false_eq_true, if_false, Bool.not_true, if_neg hvalid, httpGotoRecvBody]
      rfl
    by_cases hnothing : contentLength ≠ 0 ∧ h.length = (chainPktLen rxData).toNat
    · rw [if_pos hnothing] at hout
      obtain ⟨hpos, hpkt⟩ := hnothing
      rw [hdata.pktLen, List.length_append, hlength] at hpkt
      have hr : r.length = 0 := by
        omega
      have hmore : more ≠ [] := by
        rintro rfl
        rw [List.length_nil] at hbody
        omega
      have hheld : (h ++ r).drop h.length = [] := by
        rw [List.drop_left]
        exact List.length_eq_zero_iff.1 hr
      right
      rw [HttpSession.deliver, hout, hdata.bytes_eq, hcut]
      refine ⟨Expects.body rfl hheld hmore ?_ hvalid, ?_⟩
      · simp only
        omega
      · refine finished_congr role storage contentLength ⟨rfl, rfl⟩ rfl (by simp) ?_
        simp only [hheld, List.length_nil, List.length_append]
        omega
    · rw [if_neg hnothing] at hout
      exact steps_recvBody hdata hout ⟨rfl, rfl⟩ rfl hlength hbody.symm hvalid

/-- One delivery of the bytes that a session expects. -/
theorem Expects.step
    (storage : HttpStorage)
    (hexp : Expects role contentLength s (piece ++ more))
    (hdata : Lays rxData (s.held ++ piece)) :
    Steps role storage contentLength s (s.deliver role storage rxData) piece more := by
  cases hexp with
  | @header h body hstate hscan hsplit hopen hheader hbody =>
      rw [← List.append_assoc] at hsplit
      by_cases hpart : ∃ m, h = (s.held ++ piece) ++ m ∧ m ≠ [] ∧ more = m ++ body
      · obtain ⟨m, hh, hm, hmore⟩ := hpart
        exact steps_header_part hdata hstate hscan hheader hbody hh hm hmore
      · obtain ⟨r, hcut, hbody'⟩ : ∃ r, s.held ++ piece = h ++ r ∧ body = r ++ more := by
          rcases List.append_eq_append_iff.1 hsplit with ⟨m, hh, hmore⟩ | ⟨r, hcut, hbody'⟩
          · rcases eq_or_ne m [] with rfl | hm
            · exact ⟨[], by rw [hh, List.append_nil, List.append_nil], hmore.symm⟩
            · exact absurd ⟨m, hh, hm, hmore⟩ hpart
          · exact ⟨r, hcut, hbody'⟩
        exact steps_header_end hdata hstate hscan hheader hbody hcut hbody'
  | body hstate hheld hmore hlength hvalid =>
      have hout : httpDeliverData role s.app storage s.stats rxData =
          httpRecvBody role s.app storage s.stats rxData 0 := by
        rw [httpDeliverData, hstate, if_neg (bodyState_ne_hdrState role), if_pos rfl]
      refine steps_recvBody (r := piece.length) hdata hout ⟨rfl, rfl⟩ hstate ?_ ?_ hvalid
      · rw [hheld, List.length_nil]
      · rw [hlength, List.length_append]

theorem Expects.ne_nil
    (hexp : Expects role contentLength s more) :
    more ≠ [] := by
  rintro rfl
  cases hexp with
  | header hstate hscan hsplit hopen hheader hbody =>
      have hlength := congrArg List.length hsplit
      rw [List.append_nil, List.length_append] at hlength
      omega
  | body hstate hheld hmore hlength hvalid =>
      exact hmore rfl

theorem Deliveries.eq_of_nil
    {t : HttpSession}
    (hrun : Deliveries role storage s more t)
    (hmore : more = []) :
    t = s := by
  cases hrun with
  | nil s =>
      rfl
  | cons hpiece hdata hrest =>
      exact absurd (List.append_eq_nil_iff.1 hmore).1 hpiece

/-- By induction on the deliveries: what a message leaves does not depend on its pieces. -/
theorem Deliveries.finished
    {t : HttpSession}
    (hrun : Deliveries role storage s more t)
    (hexp : Expects role contentLength s more) :
    t = s.finished role storage contentLength more := by
  induction hrun with
  | nil s =>
      exact absurd rfl hexp.ne_nil
  | cons hpiece hdata hrest ih =>
      rcases hexp.step storage hdata with ⟨hnil, hdone⟩ | ⟨hrest', hsame⟩
      · rw [hrest.eq_of_nil hnil, hdone, hnil, List.append_nil]
      · rw [ih hrest', hsame]

/-- A session that waits expects any message. -/
theorem Ready.expects
    {bytes header body : List UInt8}
    (hready : Ready role s.app)
    (hheld : s.held = [])
    (hsplit : bytes = header ++ body)
    (hheader : HeaderOf httpContentLengthInvalid header contentLength)
    (hbody : BodyOf role contentLength body) :
    Expects role contentLength s bytes := by
  refine Expects.header hready.state ?_ ?_ ?_ (by rwa [hready.contentLength]) hbody
  · rw [hheld]
    exact scanned_nil hready.scanOffset
  · rw [hheld, List.nil_append, hsplit]
  · rw [hheld, List.length_nil]
    exact hheader.length_pos

/--
However a message is cut into deliveries and whatever the layouts of their chains, it leaves the
session, the counters and the consumed bytes that it leaves when it comes in one piece, and all
of it is consumed.
-/
theorem deliveries_eq_single
    {bytes : List UInt8} {t : HttpSession} {whole : Chain}
    (hwaits : Waits storage role s.app)
    (hheld : s.held = [])
    (hmessage : HttpMessage role bytes)
    (hrun : Deliveries role storage s bytes t)
    (hwhole : Lays whole bytes) :
    t = s.deliver role storage whole ∧ t.consumed = s.consumed + bytes.length := by
  obtain ⟨header, body, contentLength, hsplit, hheader, hbody⟩ := hmessage
  have hexp := hwaits.ready.expects hheld hsplit hheader hbody
  have hsingle : Deliveries role storage s (bytes ++ []) (s.deliver role storage whole) := by
    refine Deliveries.cons hexp.ne_nil ?_ (Deliveries.nil _)
    rwa [hheld, List.nil_append]
  rw [List.append_nil] at hsingle
  have hdone := hrun.finished hexp
  refine ⟨by rw [hdone, hsingle.finished hexp], ?_⟩
  rw [hdone, HttpSession.finished, hheld]
  rfl

/-- A chain of one mbuf. -/
def oneMbuf (bytes : List UInt8) : Chain :=
  [⟨64, bytes, BitVec.ofNat 32 bytes.length, 1⟩]

def threeBytes : HttpStorage :=
  ⟨oneMbuf [1, 2, 3], by decide, by decide, by decide⟩

/-- A server whose connection has come up. -/
def upSession : HttpSession :=
  { app := (httpServerConnUp ⟨.recv 7, 0, 0, 0, .closed⟩).1
    stats := ⟨0, 0, 0, 0, 0⟩
    held := []
    consumed := 0
    notifs := [] }

/-- Cut inside a line end, and once more in the header with the first mbuf empty. -/
theorem deliveries_eq_single_two :
    (upSession.deliver .server threeBytes (oneMbuf [65, 13])).deliver .server threeBytes
        (⟨1, [], 26, 3⟩ :: ⟨2, [65, 13, 10] ++ httpContentLenStr, 0, 0⟩ ::
          oneMbuf [32, 50, 13, 10, 13, 10, 104, 105]) =
      upSession.deliver .server threeBytes
        (oneMbuf ([65, 13, 10] ++ ((httpContentLenStr ++ [32, 50, 13, 10]) ++ [13, 10]) ++
          [104, 105])) ∧
    ((upSession.deliver .server threeBytes (oneMbuf [65, 13])).deliver .server threeBytes
        (⟨1, [], 26, 3⟩ :: ⟨2, [65, 13, 10] ++ httpContentLenStr, 0, 0⟩ ::
          oneMbuf [32, 50, 13, 10, 13, 10, 104, 105])).consumed = 26 := by
  have hheader : HeaderOf httpContentLengthInvalid
      ([65, 13, 10] ++ ((httpContentLenStr ++ [32, 50, 13, 10]) ++ [13, 10])) 2 := by
    refine HeaderOf.line ⟨[65], rfl, by decide⟩ (by decide) (by decide +kernel) ?_
    refine HeaderOf.line ⟨httpContentLenStr ++ [32, 50], rfl, by decide⟩ (by decide)
      (by decide +kernel) ?_
    have htwo : lengthAfter (lengthAfter httpContentLengthInvalid (hdrField [65, 13, 10]))
        (hdrField (httpContentLenStr ++ [32, 50, 13, 10])) = 2 := by
      decide +kernel
    rw [htwo]
    exact HeaderOf.done 2
  have hmessage : HttpMessage .server ([65, 13, 10] ++
      ((httpContentLenStr ++ [32, 50, 13, 10]) ++ [13, 10]) ++ [104, 105]) :=
    ⟨_, [104, 105], 2, rfl, hheader, by unfold BodyOf; decide⟩
  have hheld : (upSession.deliver .server threeBytes (oneMbuf [65, 13])).held = [65, 13] := by
    decide +kernel
  have hrun : Deliveries .server threeBytes upSession ([65, 13, 10] ++
      ((httpContentLenStr ++ [32, 50, 13, 10]) ++ [13, 10]) ++ [104, 105])
      ((upSession.deliver .server threeBytes (oneMbuf [65, 13])).deliver .server threeBytes
        (⟨1, [], 26, 3⟩ :: ⟨2, [65, 13, 10] ++ httpContentLenStr, 0, 0⟩ ::
          oneMbuf [32, 50, 13, 10, 13, 10, 104, 105])) := by
    have hsecond := @Deliveries.cons .server threeBytes
      (upSession.deliver .server threeBytes (oneMbuf [65, 13])) _
      (⟨1, [], 26, 3⟩ :: ⟨2, [65, 13, 10] ++ httpContentLenStr, 0, 0⟩ ::
        oneMbuf [32, 50, 13, 10, 13, 10, 104, 105])
      ([10] ++ (httpContentLenStr ++ [32, 50, 13, 10]) ++ [13, 10, 104, 105]) []
      (by decide) (by rw [hheld]; exact ⟨by decide, by decide⟩) (Deliveries.nil _)
    exact @Deliveries.cons .server threeBytes upSession _ (oneMbuf [65, 13]) [65, 13] _
      (by decide) ⟨by decide, by decide⟩ hsecond
  exact deliveries_eq_single (Waits.connUp _) rfl hmessage hrun ⟨by decide, by decide⟩

end Messages

end HttpDelivery
end Warp17
