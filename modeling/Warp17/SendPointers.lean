import Warp17.HttpDelivery

/-!
# The send pointer of an HTTP session

A session sends its message out of the static chain of the test case: `data_chain_from_static_chain`
(src/inc/tpg_data.h) shares the bytes at the send pointer with new mbufs, and TCP accepts any number
of them, which moves the pointer.  The pointer shares its storage with the scan offset of the
parser, so what the last advance leaves there is where the next header is scanned from.

**Results**
- `dataChainFromStaticChain_lays`: the clone holds the bytes that were asked for.
- `appSendPtrAdvance_bytes`: the pointer moves over the bytes that were accepted.
- `RoundsInv`, `Rounds.inv`: the pointer in any round of requests and responses.
- `sends_exactly`: what is sent next, and what the last advance leaves.
-/

namespace Warp17
namespace SendPointers

open ControlBlock MbufChains HttpParser HttpDelivery

/-! ## Cloning static data -/

/-- The new mbufs from the allocation number `k` on; `none` when an allocation fails. -/
def cloneStatic (allocs : Nat → Option Nat) : Nat → Chain → Nat → Nat → Option Chain
  | _, [], _, _ => some []
  | k, m :: rest, dataOffset, dataLen =>
      (allocs k).bind fun id =>
        let part := (m.data.drop dataOffset).take dataLen
        let seg : Mbuf := ⟨id, part, 0, 1⟩
        if dataLen - part.length = 0 then some [seg]
        else (cloneStatic allocs (k + 1) rest 0 (dataLen - part.length)).map (seg :: ·)

/-- `data_chain_from_static_chain()`; the empty chain stands for its null result. -/
def dataChainFromStaticChain (allocs : Nat → Option Nat) (staticChain : Chain)
    (dataOffset dataLen : Nat) : Chain :=
  if dataLen = 0 then []
  else
    match cloneStatic allocs 0 staticChain dataOffset dataLen with
    | some (m :: rest) =>
        { m with
          pktLen := BitVec.ofNat 32 dataLen
          nbSegs := BitVec.ofNat 16 (rest.length + 1) } :: rest
    | some [] => []
    | none => []

/-- `http_client_send_data` and `http_server_send_data`. -/
def httpSendData (role : HttpRole) (app : HttpApp) (stats : HttpStats)
    (allocs : Nat → Option Nat) (maxTxSize : Nat) : HttpOutcome Chain :=
  if app.haState = role.sendState then
    match app.haPtr with
    | .send mbufChain dataOffset dataLen =>
        ⟨app, stats, dataChainFromStaticChain allocs mbufChain dataOffset (min dataLen maxTxSize),
          []⟩
    -- a session that sends has its send pointer in the union
    | .recv _ => ⟨app, stats, [], []⟩
  else
    ⟨app, { stats with hstsInvalidMsgCnt := stats.hstsInvalidMsgCnt + 1 }, [], [.appClose]⟩

section Cloning

variable {allocs : Nat → Option Nat} {c parts : Chain} {offset len k : Nat}

theorem cloneStatic_bytes
    (hclone : cloneStatic allocs k c offset len = some parts) :
    chainBytes parts = (chainFrom c offset).take len := by
  induction c generalizing k offset len parts with
  | nil =>
      obtain rfl := Option.some.inj hclone
      rw [chainFrom, List.take_nil, chainBytes_nil]
  | cons m rest ih =>
      rw [cloneStatic] at hclone
      obtain ⟨id, -, hclone⟩ := Option.bind_eq_some_iff.1 hclone
      simp only [List.length_take] at hclone
      rw [chainFrom, List.take_append]
      split at hclone
      next hlast =>
        obtain rfl := Option.some.inj hclone
        rw [show len - (m.data.drop offset).length = 0 by omega, List.take_zero, chainBytes_cons,
          chainBytes_nil]
      next hmore =>
        obtain ⟨tail, htail, rfl⟩ := Option.map_eq_some_iff.1 hclone
        rw [chainBytes_cons, ih htail, chainFrom_zero,
          show len - min len (m.data.drop offset).length = len - (m.data.drop offset).length by
            omega]

theorem cloneStatic_some
    (hallocs : ∀ k, (allocs k).isSome = true)
    (c : Chain) (k offset len : Nat) :
    ∃ parts, cloneStatic allocs k c offset len = some parts := by
  induction c generalizing k offset len with
  | nil =>
      exact ⟨[], rfl⟩
  | cons m rest ih =>
      obtain ⟨id, hid⟩ := Option.isSome_iff_exists.1 (hallocs k)
      rw [cloneStatic, hid]
      simp only [Option.bind_some]
      split
      next =>
        exact ⟨_, rfl⟩
      next =>
        obtain ⟨tail, htail⟩ := ih (k + 1) 0 (len - ((m.data.drop offset).take len).length)
        exact ⟨_, by rw [htail, Option.map_some]⟩

/-- The clone has the bytes that were asked for, and their number as its length. -/
theorem dataChainFromStaticChain_lays
    (hlen : len ≤ (chainFrom c offset).length)
    (hlt : len < 2 ^ 32)
    (hclone : cloneStatic allocs 0 c offset len = some parts) :
    Lays (dataChainFromStaticChain allocs c offset len) ((chainFrom c offset).take len) := by
  rw [dataChainFromStaticChain]
  split
  next hzero =>
    rw [hzero, List.take_zero]
    exact ⟨rfl, rfl⟩
  next hpos =>
    have hbytes := cloneStatic_bytes hclone
    rw [hclone]
    cases parts with
    | nil =>
        have hlength := congrArg List.length hbytes
        rw [chainBytes_nil, List.length_nil, List.length_take] at hlength
        omega
    | cons m rest =>
        refine ⟨hbytes, ?_⟩
        simp only [chainPktLen, BitVec.toNat_ofNat, List.length_take]
        omega

theorem dataChainFromStaticChain_failed
    (hclone : cloneStatic allocs 0 c offset len = none) :
    dataChainFromStaticChain allocs c offset len = [] := by
  rw [dataChainFromStaticChain, hclone, ite_self]

end Cloning

/-! ## Moving the pointer -/

section Advance

variable {c : Chain} {offset : Nat}

/-- The pointer stands where these bytes begin. -/
structure PointsAt (c : Chain) (offset : Nat) (unsent : List UInt8) : Prop where
  bytes : chainFrom c offset = unsent
  sends : SendsFrom c offset unsent.length

theorem chainFrom_eq_drop
    (hinside : ∀ m ∈ c.head?, offset ≤ m.data.length) :
    chainFrom c offset = (chainBytes c).drop offset := by
  cases c with
  | nil =>
      rw [chainFrom, chainBytes_nil, List.drop_nil]
  | cons m rest =>
      rw [chainFrom, chainBytes_cons, List.drop_append_of_le_length (hinside m rfl)]

theorem chainFrom_skipMbufs
    {count : Nat}
    (hdata : ∀ m ∈ c, m.data ≠ [])
    (hcount : count ≤ (chainBytes c).length) :
    chainFrom (skipMbufs c count).1 (skipMbufs c count).2 = (chainBytes c).drop count := by
  have hinside := (sendsFrom_skipMbufs hdata hcount).inside
  rw [chainFrom_eq_drop fun m hm => (hinside m hm).le, skipMbufs_bytes]

/-- Where all the bytes are skipped, nothing of the count is left. -/
theorem skipMbufs_nil
    {count : Nat}
    (hnil : (skipMbufs c count).1 = []) :
    (skipMbufs c count).2 = count - (chainBytes c).length := by
  induction c generalizing count with
  | nil =>
      rfl
  | cons m rest ih =>
      rw [skipMbufs] at hnil ⊢
      split at hnil
      next hskip =>
        rw [if_pos hskip, ih hnil, chainBytes_cons, List.length_append, Nat.sub_sub]
      next =>
        cases hnil

/-- What the walk over whole mbufs leaves. -/
theorem pointsAt_skipMbufs
    {count : Nat}
    (hdata : ∀ m ∈ c, m.data ≠ [])
    (hcount : count ≤ (chainBytes c).length) :
    PointsAt (skipMbufs c count).1 (skipMbufs c count).2 ((chainBytes c).drop count) ∧
      ((skipMbufs c count).1 = [] → (skipMbufs c count).2 = 0) := by
  have hsends := sendsFrom_skipMbufs hdata hcount
  rw [← List.length_drop] at hsends
  refine ⟨⟨chainFrom_skipMbufs hdata hcount, hsends⟩, fun hnil => ?_⟩
  rw [skipMbufs_nil hnil]
  omega

/-- The pointer moves over the bytes that were accepted. -/
theorem appSendPtrAdvance_bytes
    {len count : Nat} {unsent : List UInt8}
    (hpoints : PointsAt c offset unsent)
    (hzero : c = [] → offset = 0)
    (hcount : count ≤ unsent.length) :
    ∃ c' offset', appSendPtrAdvance (.send c offset len) count =
        .send c' offset' (sub32 len count) ∧
      PointsAt c' offset' (unsent.drop count) ∧ (c' = [] → offset' = 0) := by
  obtain ⟨hbytes, hsends⟩ := hpoints
  cases c with
  | nil =>
      rw [chainFrom] at hbytes
      obtain rfl := hbytes
      exact ⟨[], offset, rfl, ⟨by rw [List.drop_nil]; rfl, by rwa [List.drop_nil]⟩, hzero⟩
  | cons m rest =>
      have hinside := hsends.inside m rfl
      have hrest : ∀ n ∈ rest, n.data ≠ [] := fun n hn => hsends.holdsData n (by simp [hn])
      rw [chainFrom] at hbytes
      have hlength := congrArg List.length hbytes
      rw [List.length_append, List.length_drop] at hlength
      rw [appSendPtrAdvance]
      split
      next hwithin =>
        have hdrop : chainFrom (m :: rest) (offset + count) = unsent.drop count := by
          rw [chainFrom, ← hbytes, ← List.drop_drop,
            List.drop_append_of_le_length (by rw [List.length_drop]; omega)]
        refine ⟨_, _, rfl, ⟨hdrop, by rw [hdrop], hsends.holdsData, ?_⟩,
          fun hnil => absurd hnil (List.cons_ne_nil m rest)⟩
        intro n hn
        obtain rfl := Option.some.inj hn
        omega
      next hnot =>
        split
        next hexact =>
          have hdrop : chainFrom rest 0 = unsent.drop count := by
            rw [chainFrom_zero, ← hbytes, hexact.2, ← List.length_drop, List.drop_left]
          refine ⟨rest, 0, rfl, ⟨hdrop, by rw [hdrop], hrest, ?_⟩, fun _ => rfl⟩
          intro n hn
          exact List.length_pos_iff.2 (hrest n (List.mem_of_mem_head? hn))
        next hmore =>
          by_cases hoffset : offset = 0
          · obtain rfl := hoffset
            have hskip := @pointsAt_skipMbufs (m :: rest) count hsends.holdsData
              (by rw [chainBytes_cons, List.length_append]; omega)
            rw [chainBytes_cons, ← List.drop_zero (l := m.data), hbytes] at hskip
            simp only [ne_eq, not_true_eq_false, if_false]
            exact ⟨_, _, rfl, hskip⟩
          · have hskip := @pointsAt_skipMbufs rest (count - (m.data.length - offset)) hrest
              (by omega)
            have hpast : (m.data.drop offset).drop count = [] := by
              refine List.drop_of_length_le ?_
              rw [List.length_drop]
              omega
            have hdrop : (chainBytes rest).drop (count - (m.data.length - offset)) =
                unsent.drop count := by
              rw [← hbytes, ← List.length_drop, List.drop_append, hpast, List.nil_append]
            rw [hdrop] at hskip
            rw [if_pos hoffset]
            exact ⟨_, _, rfl, hskip⟩

end Advance

/-! ## Rounds of requests and responses -/

section Rounds

/-- The connection of a session comes up. -/
def httpConnUp (role : HttpRole) (app : HttpApp) (storage : HttpStorage) : HttpApp :=
  match role with
  | .client => (httpClientConnUp app storage).1
  | .server => (httpServerConnUp app).1

/-- The message of a test case. -/
def message (storage : HttpStorage) : List UInt8 :=
  chainBytes storage.httpMbuf

/-- A session and how much of its message TCP has accepted in this round: TCP accepts bytes of a
session that sends, and delivers data at any time. -/
inductive Rounds (role : HttpRole) (storage : HttpStorage) : HttpApp → Nat → Prop
  | connUp (app : HttpApp) :
      Rounds role storage (httpConnUp role app storage) 0
  | sent {app : HttpApp} {sentBytes : Nat} (hrun : Rounds role storage app sentBytes)
      (stats : HttpStats) (count : Nat) (hstate : app.haState = role.sendState)
      (hcount : sentBytes + count ≤ (message storage).length) :
      Rounds role storage (httpDataSent role app stats count).app (sentBytes + count)
  | deliver {app : HttpApp} {sentBytes : Nat} (hrun : Rounds role storage app sentBytes)
      (stats : HttpStats) (rxData : Chain) :
      Rounds role storage (httpDeliverData role app storage stats rxData).app
        (if app.haState = role.sendState then sentBytes else 0)

/-- The pointer of a session that sends. -/
structure RoundsInv (storage : HttpStorage) (app : HttpApp) (sentBytes : Nat) : Prop where
  some_left : sentBytes < (message storage).length
  contentLength : app.haContentLength = (message storage).length - sentBytes
  ptr : ∃ c offset, app.haPtr = .send c offset ((message storage).length - sentBytes) ∧
    PointsAt c offset ((message storage).drop sentBytes) ∧ (c = [] → offset = 0)

variable {role : HttpRole} {storage : HttpStorage} {app : HttpApp} {sentBytes : Nat}

theorem message_pos
    (storage : HttpStorage) :
    0 < (message storage).length := by
  obtain ⟨m, rest, hcons⟩ := List.exists_cons_of_ne_nil storage.nonempty
  have hm := List.length_pos_iff.2 (storage.holdsData m (by simp [hcons]))
  rw [message, hcons, chainBytes_cons, List.length_append]
  omega

theorem message_lt
    (storage : HttpStorage) :
    (message storage).length < 2 ^ 32 := by
  rw [message, ← storage.pktLen]
  exact BitVec.isLt _

theorem roundsInv_gotoSend
    (role : HttpRole) (app : HttpApp) (storage : HttpStorage) :
    RoundsInv storage (httpGotoSend role app storage) 0 := by
  have hinv := (sendInv_gotoSend role app storage).ptr
  refine ⟨message_pos storage, ?_, storage.httpMbuf, 0, ?_, ⟨?_, ?_, storage.holdsData, ?_⟩,
    fun _ => rfl⟩
  · rw [httpGotoSend, Nat.sub_zero, message, storage.pktLen]
  · rw [httpGotoSend, Nat.sub_zero, message, storage.pktLen]
  · rw [chainFrom_zero, List.drop_zero, message]
  · rw [chainFrom_zero, List.drop_zero, message]
  · intro m hm
    exact List.length_pos_iff.2 (storage.holdsData m (List.mem_of_mem_head? hm))

/-- TCP accepts some of the bytes: the message is sent, or the rest of it remains. -/
theorem RoundsInv.dataSent
    (hinv : RoundsInv storage app sentBytes)
    (stats : HttpStats)
    {count : Nat}
    (hstate : app.haState = role.sendState)
    (hcount : sentBytes + count ≤ (message storage).length) :
    (sentBytes + count = (message storage).length ∧
      (httpDataSent role app stats count).app.haPtr = .send [] 0 0 ∧
      Ready role (httpDataSent role app stats count).app) ∨
    (RoundsInv storage (httpDataSent role app stats count).app (sentBytes + count) ∧
      (httpDataSent role app stats count).app.haState = role.sendState) := by
  obtain ⟨c, offset, hptr, hpoints, hzero⟩ := hinv.ptr
  have hlt := message_lt storage
  have hsub : sub32 ((message storage).length - sentBytes) count =
      (message storage).length - (sentBytes + count) := by
    rw [sub32_of_le (by omega) (by omega), Nat.sub_sub]
  obtain ⟨c', offset', hadvance, hpoints', hzero'⟩ :=
    @appSendPtrAdvance_bytes c offset ((message storage).length - sentBytes) count _ hpoints hzero
      (by rw [List.length_drop]; omega)
  rw [hsub] at hadvance
  rw [List.drop_drop] at hpoints'
  rw [httpDataSent, if_pos hstate, hptr, hadvance, hinv.contentLength, hsub]
  rcases Nat.lt_or_ge (sentBytes + count) (message storage).length with hmore | hdone
  · right
    rw [if_neg (by simp only; omega)]
    exact ⟨⟨hmore, rfl, c', offset', rfl, hpoints', hzero'⟩, hstate⟩
  · left
    have hall : (message storage).length - (sentBytes + count) = 0 := by
      omega
    have hsends := hpoints'.sends
    rw [List.drop_of_length_le hdone] at hsends
    obtain rfl := hsends.nil
    obtain rfl := hzero' rfl
    rw [hall, if_pos rfl]
    refine ⟨by omega, ?_, ?_⟩
    · cases role <;> rfl
    · cases role <;> exact ⟨rfl, rfl, rfl⟩

theorem httpScanLine_haState
    (app : HttpApp) (data : Chain) (offset : Nat) :
    (httpScanLine app data offset).1.haState = app.haState := by
  rw [httpScanLine]
  split <;> rfl

theorem httpParseContentLength_haState
    {app' : HttpApp} {cur : Cursor}
    (hparse : httpParseContentLength app cur = some app') :
    app'.haState = app.haState := by
  rw [httpParseContentLength] at hparse
  obtain ⟨named, -, hparse⟩ := Option.bind_eq_some_iff.1 hparse
  obtain ⟨valued, -, hparse⟩ := Option.bind_eq_some_iff.1 hparse
  obtain ⟨⟨last, contentLen⟩, -, hparse⟩ := Option.bind_eq_some_iff.1 hparse
  simp only at hparse
  split at hparse
  next =>
    obtain rfl := Option.some.inj hparse
    rfl
  next =>
    obtain rfl := Option.some.inj hparse
    rfl

theorem httpParseHdrLine_haState
    (app : HttpApp) (stats : HttpStats) (data : Chain) (offset len : Nat) :
    (httpParseHdrLine app stats data offset len).1.haState = app.haState := by
  rw [httpParseHdrLine]
  split
  next app' hparse =>
    exact httpParseContentLength_haState hparse
  next =>
    split <;> rfl

/-- The parser does not change the state, by induction on the lines. -/
theorem httpParseHdrLoop_haState
    (data : Chain) (app : HttpApp) (stats : HttpStats) (offset delivered : Nat) :
    (httpParseHdrLoop data app stats offset delivered).app.haState = app.haState := by
  fun_induction httpParseHdrLoop data app stats offset delivered with
  | case1 app stats offset delivered hmore app' hline =>
      have hscan := httpScanLine_haState app data offset
      rwa [hline] at hscan
  | case2 app stats offset delivered hmore app' hline hzero =>
      have hscan := httpScanLine_haState app data offset
      rwa [hline] at hscan
  | case3 app stats offset delivered hmore app' lineLen hline hzero htwo app'' stats' hparse =>
      have hscan := httpScanLine_haState app data offset
      have hhdr := httpParseHdrLine_haState app' stats data offset lineLen
      rw [hline] at hscan
      rw [hparse] at hhdr
      exact hhdr.trans hscan
  | case4 app stats offset delivered hmore app' lineLen hline hzero htwo app'' stats' hparse ih =>
      have hscan := httpScanLine_haState app data offset
      have hhdr := httpParseHdrLine_haState app' stats data offset lineLen
      rw [hline] at hscan
      rw [hparse] at hhdr
      exact ih.trans (hhdr.trans hscan)
  | case5 app stats offset delivered hend =>
      rfl

theorem hdrState_ne_sendState
    (role : HttpRole) :
    role.hdrState ≠ role.sendState := by
  cases role <;> exact HttpState.noConfusion

theorem bodyState_ne_sendState
    (role : HttpRole) :
    role.bodyState ≠ role.sendState := by
  cases role <;> exact HttpState.noConfusion

/-- A delivery leaves the session in a state that does not send, or at the start of a message. -/
def StartsOrWaits (role : HttpRole) (storage : HttpStorage) (app : HttpApp) : Prop :=
  app.haState = role.sendState → ∃ before, app = httpGotoSend role before storage

theorem startsOrWaits_of_ne
    (hne : app.haState ≠ role.sendState) :
    StartsOrWaits role storage app :=
  fun hstate => absurd hstate hne

theorem startsOrWaits_gotoSend
    (role : HttpRole) (storage : HttpStorage) (app : HttpApp) :
    StartsOrWaits role storage (httpGotoSend role app storage) :=
  fun _ => ⟨app, rfl⟩

theorem startsOrWaits_recvBody
    (stats : HttpStats) (rxData : Chain) (delivered : Nat)
    (hstate : app.haState = role.bodyState) :
    StartsOrWaits role storage (httpRecvBody role app storage stats rxData delivered).app := by
  rw [httpRecvBody]
  split
  next consumed heq =>
    exact startsOrWaits_gotoSend role storage _
  next app' delivered' heq =>
    obtain ⟨rfl, -⟩ := Prod.mk.inj heq
    refine startsOrWaits_of_ne ?_
    rw [hstate]
    exact bodyState_ne_sendState role

theorem startsOrWaits_noContentLength
    (stats : HttpStats) (delivered : Nat)
    (hstate : app.haState = role.hdrState) :
    StartsOrWaits role storage (httpNoContentLength role app storage stats delivered).app := by
  cases role with
  | client =>
      refine startsOrWaits_of_ne ?_
      rw [httpNoContentLength, hstate]
      exact hdrState_ne_sendState .client
  | server =>
      exact startsOrWaits_gotoSend .server storage _

/-- The callback that receives data, state by state. -/
theorem startsOrWaits_deliver
    (stats : HttpStats) (rxData : Chain)
    (hstate : app.haState ≠ role.sendState) :
    StartsOrWaits role storage (httpDeliverData role app storage stats rxData).app := by
  rw [httpDeliverData]
  split
  next hhdr =>
    have hparsed : (httpParseHdr app stats rxData 0).app.haState = role.hdrState := by
      rw [httpParseHdr, httpParseHdrLoop_haState, hhdr]
    have hwaits : StartsOrWaits role storage (httpParseHdr app stats rxData 0).app := by
      refine startsOrWaits_of_ne ?_
      rw [hparsed]
      exact hdrState_ne_sendState role
    simp only
    split
    next => exact hwaits
    next =>
      split
      next => exact hwaits
      next =>
        split
        next => exact startsOrWaits_noContentLength _ _ hparsed
        next =>
          split
          next => exact startsOrWaits_of_ne (bodyState_ne_sendState role)
          next => exact startsOrWaits_recvBody _ _ _ rfl
  next =>
    split
    next hbody => exact startsOrWaits_recvBody _ _ _ hbody
    next => exact startsOrWaits_of_ne hstate

theorem httpDeliverData_sending
    (stats : HttpStats) (rxData : Chain)
    (hstate : app.haState = role.sendState) :
    (httpDeliverData role app storage stats rxData).app = app := by
  rw [httpDeliverData, if_neg, if_neg]
  · rw [hstate]
    exact (bodyState_ne_sendState role).symm
  · rw [hstate]
    exact (hdrState_ne_sendState role).symm

/-- In every round, by induction on what happens to the session. -/
theorem Rounds.inv
    (hrun : Rounds role storage app sentBytes)
    (hstate : app.haState = role.sendState) :
    RoundsInv storage app sentBytes := by
  induction hrun with
  | connUp app =>
      cases role with
      | client =>
          exact roundsInv_gotoSend .client _ storage
      | server =>
          exact absurd hstate (hdrState_ne_sendState .server)
  | sent hrun stats count hsending hcount ih =>
      rcases (ih hsending).dataSent stats hsending hcount with ⟨-, -, hready⟩ | ⟨hinv, -⟩
      · rw [hready.state] at hstate
        exact absurd hstate (hdrState_ne_sendState role)
      · exact hinv
  | @deliver app sentBytes hrun stats rxData ih =>
      by_cases hsending : app.haState = role.sendState
      · rw [if_pos hsending, httpDeliverData_sending stats rxData hsending]
        exact ih hsending
      · obtain ⟨before, hstart⟩ := startsOrWaits_deliver stats rxData hsending hstate
        rw [if_neg hsending, hstart]
        exact roundsInv_gotoSend role before storage

/-- In every round: what is offered to TCP next, and what the pointer is once all is accepted. -/
theorem sends_exactly
    (hrun : Rounds role storage app sentBytes)
    (hstate : app.haState = role.sendState)
    (stats : HttpStats) :
    (∀ (allocs : Nat → Option Nat) (maxTxSize : Nat),
      ((httpSendData role app stats allocs maxTxSize).result = [] ∨
        Lays (httpSendData role app stats allocs maxTxSize).result
          (((message storage).drop sentBytes).take maxTxSize)) ∧
      ((∀ k, (allocs k).isSome = true) →
        Lays (httpSendData role app stats allocs maxTxSize).result
          (((message storage).drop sentBytes).take maxTxSize)) ∧
      (httpSendData role app stats allocs maxTxSize).app = app) ∧
    (httpDataSent role app stats ((message storage).length - sentBytes)).app.haPtr =
      .send [] 0 0 ∧
    Ready role (httpDataSent role app stats ((message storage).length - sentBytes)).app := by
  have hinv := hrun.inv hstate
  have hsome := hinv.some_left
  refine ⟨fun allocs maxTxSize => ?_, ?_⟩
  · obtain ⟨c, offset, hptr, hpoints, -⟩ := hinv.ptr
    have hlt := message_lt storage
    have hbytes := hpoints.bytes
    have hlength : (chainFrom c offset).length = (message storage).length - sentBytes := by
      rw [hbytes, List.length_drop]
    have htake : (chainFrom c offset).take
        (min ((message storage).length - sentBytes) maxTxSize) =
          ((message storage).drop sentBytes).take maxTxSize := by
      rw [hbytes]
      rcases Nat.le_total maxTxSize ((message storage).length - sentBytes) with hle | hge
      · rw [Nat.min_eq_right hle]
      · rw [Nat.min_eq_left hge, List.take_of_length_le (by rw [List.length_drop]),
          List.take_of_length_le (by rw [List.length_drop]; exact hge)]
    rw [httpSendData, if_pos hstate, hptr, ← htake]
    simp only
    have hlays := fun parts hclone => @dataChainFromStaticChain_lays allocs c parts offset
      (min ((message storage).length - sentBytes) maxTxSize) (by omega) (by omega) hclone
    refine ⟨?_, fun hallocs => ?_, trivial⟩
    · cases hclone : cloneStatic allocs 0 c offset
          (min ((message storage).length - sentBytes) maxTxSize) with
      | none =>
          exact Or.inl (dataChainFromStaticChain_failed hclone)
      | some parts =>
          exact Or.inr (hlays parts hclone)
    · obtain ⟨parts, hclone⟩ := cloneStatic_some hallocs c 0 offset
        (min ((message storage).length - sentBytes) maxTxSize)
      exact hlays parts hclone
  · rcases hinv.dataSent stats hstate (show sentBytes + ((message storage).length - sentBytes) ≤
      (message storage).length by omega) with ⟨-, hptr, hready⟩ | ⟨hmore, -⟩
    · exact ⟨hptr, hready⟩
    · have := hmore.some_left
      omega

/-- A client that has sent two of three bytes. -/
theorem sends_exactly_two :
    Lays (httpSendData .client (httpDataSent .client
        (httpConnUp .client ⟨.recv 7, 0, 0, 0, .closed⟩ threeBytes) ⟨0, 0, 0, 0, 0⟩ 2).app
      ⟨0, 0, 0, 0, 0⟩ some 10).result [3] :=
  ((sends_exactly (Rounds.sent (Rounds.connUp ⟨.recv 7, 0, 0, 0, .closed⟩) ⟨0, 0, 0, 0, 0⟩ 2 rfl
    (by decide)) (by decide +kernel) ⟨0, 0, 0, 0, 0⟩).1 some 10).2.1 (fun _ => rfl)

end Rounds

end SendPointers
end Warp17
