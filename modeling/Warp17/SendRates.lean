import Mathlib.Algebra.Order.Floor.Div
import Warp17.GroupsInUse

/-!
# The packet rate of a client

The send rate of a client test case is configured in application sends per second and enforced
in packets per second.  `test_init_msg_client_rates` in src/src/tpg_test_mgmt.c translates one
into the other: the socket options and the MTU of the port give the largest packet, the
application says how many packets one of its sends takes, and the product with the configured
rate is rounded down to the precision of the rate limiter.

All of it is 32-bit arithmetic, except for the MTU, which is taken in 64 bits and cut off.  The
mbuf that the HTTP applications write their header to may be missing (`none`) or have room for
the given number of bytes.  A group counts the packets of its members on the average, rounded up,
and a member that is a group itself has been rounded before.

**Results**
- `divRoundUp_iff`, `basicPktsPerSend_iff`: when a count of packets is exact.
- `fits_of_addPktsPerSend`, `levelPkts_ends`: when the totals of a group are exact.
- `rounded_of_flat`: a group of no groups is rounded once.
- `sendRate_exact_iff`: when the packet rate is the exact one.
-/

namespace Warp17
namespace SendRates

open TestCaseConfig ImixGroups BoundedCalls GuardedRuns ManagementApi GroupsInUse

/-! ## The largest packet -/

/-- Ethernet, IPv4 and TCP headers with the Ethernet checksum. -/
def tcbMinHdrsSz : Nat := 14 + 20 + 20 + 4

def ucbMinHdrsSz : Nat := 14 + 20 + 8 + 4

/-- `TCP_MTU` and `UDP_MTU`: a difference of type `size_t`. -/
def l4Mtu (minHdrsSz : Nat) (piMtu : BitVec 16) (sockopt : Sockopt) : Nat :=
  (((piMtu.toNat : Int) - sockopt.soIpv4.ip4soHdrOptLen - sockopt.soVlan.vlansoHdrOptLen -
    minHdrsSz) % 2 ^ 64).toNat

def tcpMtu : BitVec 16 → Sockopt → Nat :=
  l4Mtu tcbMinHdrsSz

def udpMtu : BitVec 16 → Sockopt → Nat :=
  l4Mtu ucbMinHdrsSz

/-- `TCP_GLOBAL_AVAIL_SEND`, with one segment for each send. -/
def tcpGlobalAvailSend (piMtu : BitVec 16) (sockopt : Sockopt) : Nat :=
  min sockopt.soTcp.tcpoWinSize (tcpMtu piMtu sockopt)

/-- The protocol of either side; nothing for a test case that is none. -/
def sideL4Proto : TestCaseSide → L4Proto
  | .client client => client.clL4.l4cProto
  | .server server => server.srvL4.l4sProto
  | .max => .max

def testMaxPktSize (piMtu : BitVec 16) (sockopt : Sockopt) (side : TestCaseSide) : Nat :=
  match sideL4Proto side with
  | .tcp => tcpGlobalAvailSend piMtu sockopt % 2 ^ 32
  | .udp => udpMtu piMtu sockopt % 2 ^ 32
  | .max => 0

/-! ## Packets for a send -/

/-- `(len + max_pkt_size - 1) / max_pkt_size`; nothing for a division by zero. -/
def divRoundUp (len maxPktSize : Nat) : Option Nat :=
  if maxPktSize = 0 then none else some ((len + maxPktSize - 1) % 2 ^ 32 / maxPktSize)

def rawClientPktsPerSend (maxPktSize : Nat) (app : RawClient) : Option Nat :=
  divRoundUp app.rcReqPlen maxPktSize

def rawServerPktsPerSend (maxPktSize : Nat) (app : RawServer) : Option Nat :=
  divRoundUp app.rsRespPlen maxPktSize

def crlf : List Char :=
  "\r\n".toList

def httpTpgUserAgent : List Char :=
  "WARP17 HTTP CL".toList

/-- `HTTP_OBJECT_NAME`. -/
def httpObjectName (name : Option Text) : List Char :=
  (name.map Text.chars).getD "/index.html".toList

/-- `HTTP_HOST_NAME`. -/
def httpHostName (name : Option Text) : List Char :=
  (name.map Text.chars).getD "www.foo42.net".toList

/-- `HTTP_FIELDS`. -/
def httpFields (fields : Option Text) : List Char :=
  (fields.map Text.chars).getD "ContentType: plain/text".toList

/-- `http_method_names`. -/
def httpMethodName : HttpMethod → List Char
  | .get => "GET".toList
  | .head => "HEAD".toList
  | .post => "POST".toList
  | .put => "PUT".toList
  | .delete => "DELETE".toList
  | .connect => "CONNECT".toList
  | .options => "OPTIONS".toList
  | .trace => "TRACE".toList
  | .max => []

/-- `http_status_names`. -/
def httpStatusName : HttpStatusCode → List Char
  | .ok200 => "200 OK".toList
  | .notFound404 => "404 NOT FOUND".toList
  | .forbidden403 => "403 FORBIDDEN".toList
  | .max => []

/-- `"Content-Length: %u\r\n"`. -/
def httpContentLength (size : Nat) : List Char :=
  httpContentLenStr ++ [' '] ++ Nat.toDigits 10 size ++ crlf

/-- The strings of a request header, in the order in which they are written. -/
def httpReqStrs (app : HttpClient) : List (List Char) :=
  [httpMethodName app.hcReqMethod ++ [' '] ++ httpObjectName app.hcReqObjectName ++
      " HTTP/1.1\r\n".toList,
    "User-Agent: ".toList ++ httpTpgUserAgent ++ crlf,
    "Host: ".toList ++ httpHostName app.hcReqHostName ++ crlf,
    httpFields app.hcReqFields ++ crlf,
    httpContentLength app.hcReqSize,
    crlf]

/-- The strings of a response header. -/
def httpRespStrs (app : HttpServer) : List (List Char) :=
  ["HTTP/1.1 ".toList ++ httpStatusName app.hsRespCode ++ crlf,
    "Server: ".toList ++ httpTpgUserAgent ++ crlf,
    httpFields app.hsRespFields ++ crlf,
    httpContentLength app.hsRespSize,
    crlf]

/-- The mbuf that a header is written to: the room left in it and the text. -/
structure HttpMbuf where
  tailroom : Nat
  text : List Char
deriving DecidableEq, Repr

/--
What `http_write_str` comes to in the first mbuf.  A string that does not fit goes wrong: the rest
is never put into the mbufs that are appended, and the loop appends more until there are none.
-/
def writeHeaderStr (mbuf : HttpMbuf) (str : List Char) : Option HttpMbuf :=
  if str.length ≤ mbuf.tailroom then
    some ⟨mbuf.tailroom - str.length, mbuf.text ++ str⟩
  else none

/-- `http_build_req_pkt` and `http_build_resp_pkt` for a header alone: its packet length. -/
def httpBuildPkt (mbuf : Option Nat) (strs : List (List Char)) (size : Nat) : Option Nat := do
  let tailroom ← mbuf
  let written ← strs.foldlM writeHeaderStr ⟨tailroom, []⟩
  some ((written.text.length + size) % 2 ^ 32)

def httpClientPktsPerSend (mbuf : Option Nat) (maxPktSize : Nat) (app : HttpClient) :
    Option Nat := do
  let pktLen ← httpBuildPkt mbuf (httpReqStrs app) app.hcReqSize
  divRoundUp pktLen maxPktSize

def httpServerPktsPerSend (mbuf : Option Nat) (maxPktSize : Nat) (app : HttpServer) :
    Option Nat := do
  let pktLen ← httpBuildPkt mbuf (httpRespStrs app) app.hsRespSize
  divRoundUp pktLen maxPktSize

/-- The `pkts_per_send` callback of an application with a behaviour of its own. -/
def basicPktsPerSend (mbuf : Option Nat) (maxPktSize : Nat) : BasicApp → Option Nat
  | .rawClient app => rawClientPktsPerSend maxPktSize app
  | .rawServer app => rawServerPktsPerSend maxPktSize app
  | .httpClient app => httpClientPktsPerSend mbuf maxPktSize app
  | .httpServer app => httpServerPktsPerSend mbuf maxPktSize app

/-- `total_weight` and `total_pkts_per_send`, the sums of 64 bits. -/
structure ImixTotals where
  totalWeight : Nat
  totalPktsPerSend : Nat
deriving DecidableEq, Repr

/-- The loop of `imix_pkts_per_send`; the product has 32 bits. -/
def addPktsPerSend (pkts : App → Called (Option Nat)) :
    ImixTotals → List ImixApp → Called (Option ImixTotals)
  | totals, [] => .ok (some totals)
  | totals, app :: apps => do
      match ← pkts app.iaApp with
      | none => .ok none
      | some n =>
          addPktsPerSend pkts
            ⟨totals.totalWeight + app.iaWeight,
              totals.totalPktsPerSend + app.iaWeight * n % 2 ^ 32⟩ apps

/-- The weighted average of the totals, rounded up. -/
def averagePkts (totals : ImixTotals) : Option Nat :=
  if totals.totalWeight = 0 then none
  else some ((totals.totalPktsPerSend + totals.totalWeight - 1) / totals.totalWeight % 2 ^ 32)

/-- `imix_pkts_per_send` -/
def imixPktsPerSend (pkts : App → Called (Option Nat)) (apps : List ImixApp) :
    Called (Option Nat) := do
  let totals ← addPktsPerSend pkts ⟨0, 0⟩ apps
  .ok (totals.bind averagePkts)

/-- A text of the application was freed. -/
def BasicApp.lost (freed : List Nat) (app : BasicApp) : Bool :=
  app.texts.any fun text => decide (text.block ∈ freed)

/-- `APP_CALL(pkts_per_send, app_proto)`: nothing when the program dies of a division by zero or for
want of an mbuf.  A header is written with all texts of its application. -/
def pktsPerSend (mbuf : Option Nat) (maxPktSize : Nat) (imix : Imix) :
    Nat → App → Called (Option Nat)
  | _, .basic app =>
      if BasicApp.lost imix.freed app then .error .freed
      else .ok (basicPktsPerSend mbuf maxPktSize app)
  | _, .max => .error .wild
  | 0, .imix _ => .error .deep
  | fuel + 1, .imix imixId =>
      imixPktsPerSend (pktsPerSend mbuf maxPktSize imix fuel) (imix.groups imixId).tigApps

/-! ## The rate -/

/-- `GCFG_RATE_MIN_RATE_PRECISION` -/
def minRatePrecision : Nat := 50

/-- Rounded down to the precision, above it. -/
def roundRate (rate : Nat) : Nat :=
  if rate > minRatePrecision then rate / minRatePrecision * minRatePrecision else rate

/-- The send rate that `test_init_msg_client_rates` sets; nothing when the program dies. -/
def clientSendRate (mbuf : Option Nat) (piMtu : BitVec 16) (imix : Imix) (entry : TestCase)
    (sockopt : Sockopt) (client : Client) (fuel : Nat) : Called (Option Rate) :=
  match client.clRates.rcSendRate with
  | none => .ok (some none)
  | some sendRate => do
      let pkts ←
        pktsPerSend mbuf (testMaxPktSize piMtu sockopt entry.side) imix fuel entry.tcApp
      .ok (pkts.map fun n => some (roundRate (n * sendRate % 2 ^ 32)))

/-- `test_init_msg`, as far as the send rate goes: a server has no limit. -/
def testInitMsgSendRate (mbuf : Option Nat) (piMtu : BitVec 16) (imix : Imix) (entry : TestCase)
    (sockopt : Sockopt) (fuel : Nat) : Called (Option Rate) :=
  match entry.side with
  | .client client => clientSendRate mbuf piMtu imix entry sockopt client fuel
  | .server _ => .ok (some none)
  | .max => .ok none

/-! ## The exact values -/

/-- The headers and options that a packet of the test case carries. -/
def hdrsSz (minHdrsSz : Nat) (sockopt : Sockopt) : Nat :=
  sockopt.soIpv4.ip4soHdrOptLen + sockopt.soVlan.vlansoHdrOptLen + minHdrsSz

/-- The bytes that a packet has room for. -/
def payloadRoom (piMtu : BitVec 16) (sockopt : Sockopt) (side : TestCaseSide) : Nat :=
  match sideL4Proto side with
  | .tcp => min sockopt.soTcp.tcpoWinSize (piMtu.toNat - hdrsSz tcbMinHdrsSz sockopt)
  | .udp => piMtu.toNat - hdrsSz ucbMinHdrsSz sockopt
  | .max => 0

/-- The strings of the header that an application writes. -/
def BasicApp.headerStrs : BasicApp → List (List Char)
  | .rawClient _ => []
  | .rawServer _ => []
  | .httpClient app => httpReqStrs app
  | .httpServer app => httpRespStrs app

/-- The bytes of one send after its header. -/
def BasicApp.bodySize : BasicApp → Nat
  | .rawClient app => app.rcReqPlen
  | .rawServer app => app.rsRespPlen
  | .httpClient app => app.hcReqSize
  | .httpServer app => app.hsRespSize

/-- The bytes of one send. -/
def BasicApp.sendLen (app : BasicApp) : Nat :=
  (BasicApp.headerStrs app).flatten.length + BasicApp.bodySize app

def BasicApp.sendPkts (room : Nat) (app : BasicApp) : Nat :=
  BasicApp.sendLen app ⌈/⌉ room

/-- A value of an application that is found from the bottom up: `leaf` for an application with a
behaviour of its own, `node` for a group whose members have these weights and values. -/
inductive Evaluates {α : Type} (leaf : BasicApp → α) (node : List (Nat × α) → α)
    (apps : Nat → List ImixApp) : App → α → Prop
  | basic (app : BasicApp) : Evaluates leaf node apps (.basic app) (leaf app)
  | group (imixId : Nat) (value : App → α)
      (hmembers : ∀ m ∈ apps imixId, Evaluates leaf node apps m.iaApp (value m.iaApp)) :
      Evaluates leaf node apps (.imix imixId)
        (node ((apps imixId).map fun m => (m.iaWeight, value m.iaApp)))

/-- The weighted mean of counts, rounded up. -/
def roundedMean (values : List (Nat × Nat)) : Nat :=
  (values.map fun v => v.1 * v.2).sum ⌈/⌉ (values.map Prod.fst).sum

def exactMean (values : List (Nat × ℚ)) : ℚ :=
  (values.map fun v => (v.1 : ℚ) * v.2).sum / (values.map Prod.fst).sum

/-- The packets of a send, rounded up for every group on the way. -/
abbrev LevelPkts (room : Nat) : (Nat → List ImixApp) → App → Nat → Prop :=
  Evaluates (BasicApp.sendPkts room) roundedMean

/-- The packets of a send on the average, not rounded. -/
abbrev MeanPkts (room : Nat) : (Nat → List ImixApp) → App → ℚ → Prop :=
  Evaluates (fun app => (BasicApp.sendPkts room app : ℚ)) exactMean

/-- The packets of the members, each as often as its weight says. -/
def weightedPkts (count : App → Nat) (apps : List ImixApp) : Nat :=
  (apps.map fun m => m.iaWeight * count m.iaApp).sum

/-- What is asked of the packet rate of a client with the configured rate `sendRate`: the totals of
all groups are exact, and the packets of a send are the mean, rounded up once. -/
structure SendRateExact (mbuf : Option Nat) (piMtu : BitVec 16) (imix : Imix) (entry : TestCase)
    (sockopt : Sockopt) (sendRate : Nat) : Prop where
  room : 0 < payloadRoom piMtu sockopt entry.side
  weighted : ∀ imixId, Below (members imix.groups) entry.tcApp (.imix imixId) →
    ∃ count : App → Nat,
      (∀ m ∈ members imix.groups imixId,
        LevelPkts (payloadRoom piMtu sockopt entry.side) (members imix.groups) m.iaApp
          (count m.iaApp)) ∧
      Ends
        (fun fuel => addPktsPerSend
          (pktsPerSend mbuf (testMaxPktSize piMtu sockopt entry.side) imix fuel) ⟨0, 0⟩
          (members imix.groups imixId))
        (some ⟨groupWeight (members imix.groups imixId),
          weightedPkts count (members imix.groups imixId)⟩)
  mean : ∃ mean, MeanPkts (payloadRoom piMtu sockopt entry.side) (members imix.groups)
    entry.tcApp mean
  counted : ∀ mean, MeanPkts (payloadRoom piMtu sockopt entry.side) (members imix.groups)
      entry.tcApp mean →
    Ends
      (fun fuel =>
        pktsPerSend mbuf (testMaxPktSize piMtu sockopt entry.side) imix fuel entry.tcApp)
      (some ⌈mean⌉₊)
  exact : ∀ mean, MeanPkts (payloadRoom piMtu sockopt entry.side) (members imix.groups)
      entry.tcApp mean →
    Ends (testInitMsgSendRate mbuf piMtu imix entry sockopt)
      (some (some (roundRate (⌈mean⌉₊ * sendRate))))
  positive : ∀ mean, MeanPkts (payloadRoom piMtu sockopt entry.side) (members imix.groups)
      entry.tcApp mean →
    0 < sendRate → 0 < roundRate (⌈mean⌉₊ * sendRate)

/-! ## When they are what is computed -/

/-- There is an mbuf with room for the header. -/
def HeaderFits (mbuf : Option Nat) : BasicApp → Prop
  | .rawClient _ => True
  | .rawServer _ => True
  | .httpClient app => ∃ tailroom, mbuf = some tailroom ∧
      (httpReqStrs app).flatten.length ≤ tailroom
  | .httpServer app => ∃ tailroom, mbuf = some tailroom ∧
      (httpRespStrs app).flatten.length ≤ tailroom

/-- The header fits its mbuf, and a send with a packet less a byte 32 bits. -/
structure AppFits (mbuf : Option Nat) (room : Nat) (app : BasicApp) : Prop where
  header : HeaderFits mbuf app
  len : BasicApp.sendLen app + room ≤ 2 ^ 32

/-- All sends below an application fit, with texts that are there; and the packets of each member of
a group, counted by its weight, fit 32 bits. -/
structure AppsFit (mbuf : Option Nat) (room : Nat) (imix : Imix) (app : App) : Prop where
  sends : ∀ b, Below (members imix.groups) app (.basic b) →
    AppFits mbuf room b ∧ BasicApp.lost imix.freed b = false
  products : ∀ imixId, Below (members imix.groups) app (.imix imixId) →
    ∀ m ∈ members imix.groups imixId, ∀ n, LevelPkts room (members imix.groups) m.iaApp n →
      m.iaWeight * n < 2 ^ 32

/-- Rounding up for each group comes to the same as rounding once. -/
def RoundedOnce (room : Nat) (apps : Nat → List ImixApp) (app : App) : Prop :=
  ∀ n mean, LevelPkts room apps app n → MeanPkts room apps app mean → n = ⌈mean⌉₊

/-- The condition on a client: its window, the MTU, its application and its rate. -/
structure SendRateFits (mbuf : Option Nat) (piMtu : BitVec 16) (imix : Imix) (entry : TestCase)
    (sockopt : Sockopt) (sendRate : Nat) : Prop where
  room : 0 < payloadRoom piMtu sockopt entry.side
  sends : AppsFit mbuf (payloadRoom piMtu sockopt entry.side) imix entry.tcApp
  rounded : RoundedOnce (payloadRoom piMtu sockopt entry.side) (members imix.groups) entry.tcApp
  product : ∀ mean, MeanPkts (payloadRoom piMtu sockopt entry.side) (members imix.groups)
      entry.tcApp mean →
    sendRate = 0 ∨ 0 < ⌈mean⌉₊ ∧ ⌈mean⌉₊ * sendRate < 2 ^ 32

/-! ## The largest packet is the room -/

section Room

variable {piMtu : BitVec 16} {sockopt : Sockopt}

theorem l4Mtu_eq
    {minHdrsSz : Nat}
    (hroom : hdrsSz minHdrsSz sockopt < piMtu.toNat) :
    l4Mtu minHdrsSz piMtu sockopt = piMtu.toNat - hdrsSz minHdrsSz sockopt := by
  have hmtu := piMtu.isLt
  unfold hdrsSz at hroom ⊢
  unfold l4Mtu
  omega

theorem payloadRoom_lt
    (piMtu : BitVec 16) (sockopt : Sockopt) (side : TestCaseSide) :
    payloadRoom piMtu sockopt side < 2 ^ 16 := by
  have hmtu := piMtu.isLt
  unfold payloadRoom
  cases sideL4Proto side with
  | udp =>
      dsimp only
      omega
  | tcp =>
      exact lt_of_le_of_lt (Nat.min_le_right _ _) (by omega)
  | max =>
      exact Nat.two_pow_pos 16

/-- With room for a byte, nothing is lost between the types. -/
theorem testMaxPktSize_eq
    {side : TestCaseSide}
    (hroom : 0 < payloadRoom piMtu sockopt side) :
    testMaxPktSize piMtu sockopt side = payloadRoom piMtu sockopt side := by
  have hlt := payloadRoom_lt piMtu sockopt side
  unfold testMaxPktSize payloadRoom at *
  cases hproto : sideL4Proto side with
  | udp =>
      simp only [hproto] at hroom hlt ⊢
      rw [udpMtu, l4Mtu_eq (by omega)]
      omega
  | tcp =>
      simp only [hproto] at hroom hlt ⊢
      have hfits : hdrsSz tcbMinHdrsSz sockopt < piMtu.toNat := by
        have := lt_of_lt_of_le hroom (Nat.min_le_right _ _)
        omega
      rw [tcpGlobalAvailSend, tcpMtu, l4Mtu_eq hfits]
      exact Nat.mod_eq_of_lt (by omega)
  | max =>
      simp [hproto] at hroom

end Room

/-! ## Counting packets -/

section Counting

variable {room : Nat}

/-- What is cut off is lost: a count that overflows is below the exact one. -/
theorem divRoundUp_le
    {len pkts : Nat}
    (hpkts : divRoundUp len room = some pkts) :
    0 < room ∧ pkts ≤ len ⌈/⌉ room := by
  unfold divRoundUp at hpkts
  split_ifs at hpkts with hzero
  have hroom : 0 < room := Nat.pos_of_ne_zero hzero
  cases hpkts
  refine ⟨hroom, ?_⟩
  rw [Nat.ceilDiv_eq_add_pred_div]
  exact Nat.div_le_div_right (Nat.mod_le _ _)

theorem divRoundUp_iff
    {len : Nat}
    (hroom : 0 < room)
    (hsmall : room < 2 ^ 16) :
    divRoundUp len room = some (len ⌈/⌉ room) ↔ len + room ≤ 2 ^ 32 := by
  unfold divRoundUp
  rw [if_neg hroom.ne', Nat.ceilDiv_eq_add_pred_div, Option.some_inj]
  constructor
  · intro heq
    by_contra hover
    -- a lost 2^32 is more than a packet
    have hlost : (len + room - 1) % 2 ^ 32 + room ≤ len + room - 1 := by
      omega
    have hless : (len + room - 1) % 2 ^ 32 / room + 1 ≤ (len + room - 1) / room := by
      rw [← Nat.add_div_right _ hroom]
      exact Nat.div_le_div_right hlost
    omega
  · intro hfits
    rw [Nat.mod_eq_of_lt (by omega)]

/-- A length of 32 bits may be cut off before the packets are counted. -/
theorem divRoundUp_mod
    (len : Nat)
    (hroom : 0 < room) :
    divRoundUp (len % 2 ^ 32) room = divRoundUp len room := by
  unfold divRoundUp
  rw [if_neg hroom.ne', if_neg hroom.ne']
  have hmod : (len % 2 ^ 32 + room - 1) % 2 ^ 32 = (len + room - 1) % 2 ^ 32 := by
    omega
  rw [hmod]

theorem foldlM_writeHeaderStr
    (strs : List (List Char)) (mbuf : HttpMbuf) :
    strs.foldlM writeHeaderStr mbuf =
      if strs.flatten.length ≤ mbuf.tailroom then
        some ⟨mbuf.tailroom - strs.flatten.length, mbuf.text ++ strs.flatten⟩
      else none := by
  induction strs generalizing mbuf with
  | nil =>
      simp
  | cons str strs ih =>
      rw [List.foldlM_cons, List.flatten_cons, List.length_append]
      by_cases hstr : str.length ≤ mbuf.tailroom
      · have hwrite : writeHeaderStr mbuf str =
            some ⟨mbuf.tailroom - str.length, mbuf.text ++ str⟩ := if_pos hstr
        simp only [hwrite, Option.bind_eq_bind, Option.bind_some, ih]
        by_cases hrest : strs.flatten.length ≤ mbuf.tailroom - str.length
        · rw [if_pos hrest, if_pos (by omega), Nat.sub_sub, List.append_assoc]
        · rw [if_neg hrest, if_neg (by omega)]
      · have hwrite : writeHeaderStr mbuf str = none := if_neg hstr
        simp only [hwrite, Option.bind_eq_bind, Option.bind_none]
        rw [if_neg (by omega)]

/-- A header is built when there is an mbuf and room in it. -/
theorem httpBuildPkt_eq
    (mbuf : Option Nat) (strs : List (List Char)) (size : Nat) :
    httpBuildPkt mbuf strs size =
      mbuf.bind fun tailroom =>
        if strs.flatten.length ≤ tailroom then some ((strs.flatten.length + size) % 2 ^ 32)
        else none := by
  unfold httpBuildPkt
  cases mbuf with
  | none =>
      rfl
  | some tailroom =>
      simp only [Option.bind_eq_bind, Option.bind_some, foldlM_writeHeaderStr]
      split_ifs with hfits
      · simp
      · simp

theorem httpPkts_eq_some_iff
    {mbuf : Option Nat} {strs : List (List Char)} {size pkts : Nat}
    (hroom : 0 < room) :
    (httpBuildPkt mbuf strs size).bind (fun pktLen => divRoundUp pktLen room) = some pkts ↔
      (∃ tailroom, mbuf = some tailroom ∧ strs.flatten.length ≤ tailroom) ∧
        divRoundUp (strs.flatten.length + size) room = some pkts := by
  rw [httpBuildPkt_eq]
  cases mbuf with
  | none =>
      simp
  | some tailroom =>
      simp only [Option.bind_some]
      by_cases hfits : strs.flatten.length ≤ tailroom
      · rw [if_pos hfits, Option.bind_some, divRoundUp_mod _ hroom]
        exact ⟨fun hpkts => ⟨⟨tailroom, rfl, hfits⟩, hpkts⟩, fun h => h.2⟩
      · rw [if_neg hfits]
        refine iff_of_false nofun ?_
        rintro ⟨⟨other, heq, hother⟩, -⟩
        cases heq
        exact hfits hother

theorem basicPktsPerSend_eq_some_iff
    {mbuf : Option Nat} {app : BasicApp} {pkts : Nat}
    (hroom : 0 < room) :
    basicPktsPerSend mbuf room app = some pkts ↔
      HeaderFits mbuf app ∧ divRoundUp (BasicApp.sendLen app) room = some pkts := by
  cases app with
  | rawClient app =>
      simp [basicPktsPerSend, rawClientPktsPerSend, HeaderFits, BasicApp.sendLen,
        BasicApp.headerStrs, BasicApp.bodySize]
  | rawServer app =>
      simp [basicPktsPerSend, rawServerPktsPerSend, HeaderFits, BasicApp.sendLen,
        BasicApp.headerStrs, BasicApp.bodySize]
  | httpClient app =>
      exact httpPkts_eq_some_iff hroom
  | httpServer app =>
      exact httpPkts_eq_some_iff hroom

theorem basicPktsPerSend_iff
    {mbuf : Option Nat} {app : BasicApp}
    (hroom : 0 < room)
    (hsmall : room < 2 ^ 16) :
    basicPktsPerSend mbuf room app = some (BasicApp.sendPkts room app) ↔
      AppFits mbuf room app := by
  rw [basicPktsPerSend_eq_some_iff hroom, BasicApp.sendPkts, divRoundUp_iff hroom hsmall]
  exact ⟨fun h => ⟨h.1, h.2⟩, fun h => ⟨h.header, h.len⟩⟩

theorem basicPktsPerSend_le
    {mbuf : Option Nat} {app : BasicApp} {pkts : Nat}
    (hroom : 0 < room)
    (hpkts : basicPktsPerSend mbuf room app = some pkts) :
    pkts ≤ BasicApp.sendPkts room app :=
  (divRoundUp_le ((basicPktsPerSend_eq_some_iff hroom).1 hpkts).2).2

end Counting

/-! ## Values from the bottom up -/

section Evaluating

variable {α : Type} {leaf : BasicApp → α} {node : List (Nat × α) → α}
variable {apps : Nat → List ImixApp} {app : App} {v v' : α}

/-- By induction on how the first value was found. -/
theorem Evaluates.unique
    (h : Evaluates leaf node apps app v)
    (h' : Evaluates leaf node apps app v') :
    v = v' := by
  induction h generalizing v' with
  | basic app =>
      cases h'
      rfl
  | group imixId value hmembers ih =>
      cases h' with
      | group _ value' hmembers' =>
          refine congrArg node (List.map_congr_left fun m hm => ?_)
          rw [ih m hm (hmembers' m hm)]

/-- An application that holds its groups has a value. -/
theorem evaluates_of_held
    [Nonempty α] {cfg : TestCase} {groups : Groups}
    (h : Held cfg groups app) :
    ∃ v, Evaluates leaf node (members groups) app v := by
  induction h with
  | basic app =>
      exact ⟨_, Evaluates.basic app⟩
  | group imixId hconfigured howned hmembers ih =>
      exact ⟨_, Evaluates.group imixId
        (fun a => Classical.epsilon (Evaluates leaf node (members groups) a))
        fun m hm => Classical.epsilon_spec (ih m hm)⟩

/-- An application with a behaviour of its own is below another one as a member of a group. -/
theorem below_basic_cases
    {b : BasicApp}
    (h : Below apps app (.basic b)) :
    app = .basic b ∨ ∃ imixId, Below apps app (.imix imixId) ∧
      ∃ m ∈ apps imixId, m.iaApp = .basic b := by
  generalize hb : App.basic b = a at h
  induction h with
  | self app =>
      exact .inl rfl
  | @member imixId m a hmem hbelow ih =>
      subst hb
      rcases ih rfl with hself | ⟨other, hother, hbasic⟩
      · exact .inr ⟨imixId, Below.self _, m, hmem, hself⟩
      · exact .inr ⟨other, Below.member hmem hother, hbasic⟩

end Evaluating

theorem roundedMean_eq
    (count : App → Nat) (apps : List ImixApp) :
    roundedMean (apps.map fun m => (m.iaWeight, count m.iaApp)) =
      weightedPkts count apps ⌈/⌉ groupWeight apps := by
  simp [roundedMean, weightedPkts, groupWeight, Function.comp_def]

/-! ## The average of a group -/

section Groups

variable {mbuf : Option Nat} {room : Nat} {imix : Imix} {app : App} {n : Nat}

theorem weights_of_valid
    {apps : List ImixApp}
    (hvalid : testMgmtValidateImixGroup apps = true) :
    0 < groupWeight apps ∧ ∀ m ∈ apps, m.iaWeight ≠ 0 := by
  unfold testMgmtValidateImixGroup at hvalid
  split_ifs at hvalid with hempty hmany hzero
  have hweights : ∀ m ∈ apps, m.iaWeight ≠ 0 := by
    simpa using hzero
  refine ⟨?_, hweights⟩
  cases apps with
  | nil =>
      exact absurd rfl hempty
  | cons m apps =>
      have hweight := Nat.pos_of_ne_zero (hweights m List.mem_cons_self)
      rw [groupWeight, List.map_cons, List.sum_cons]
      omega

/-- The loop over the group adds up what the members give when no product is cut off. -/
theorem ends_addPktsPerSend
    {pkts : Nat → App → Called (Option Nat)} {count : App → Nat} {apps : List ImixApp}
    (hmembers : ∀ m ∈ apps, Ends (fun fuel => pkts fuel m.iaApp) (some (count m.iaApp)))
    (hproducts : ∀ m ∈ apps, m.iaWeight * count m.iaApp < 2 ^ 32)
    (totals : ImixTotals) :
    Ends (fun fuel => addPktsPerSend (pkts fuel) totals apps)
      (some ⟨totals.totalWeight + groupWeight apps,
        totals.totalPktsPerSend + weightedPkts count apps⟩) := by
  induction apps generalizing totals with
  | nil =>
      exact ends_of_forall fun _ => rfl
  | cons m apps ih =>
      rw [List.forall_mem_cons] at hmembers hproducts
      have hrest := ih hmembers.2 hproducts.2
        ⟨totals.totalWeight + m.iaWeight,
          totals.totalPktsPerSend + m.iaWeight * count m.iaApp % 2 ^ 32⟩
      have hsums : (⟨totals.totalWeight + groupWeight (m :: apps),
            totals.totalPktsPerSend + weightedPkts count (m :: apps)⟩ : ImixTotals) =
          ⟨totals.totalWeight + m.iaWeight + groupWeight apps,
            totals.totalPktsPerSend + m.iaWeight * count m.iaApp % 2 ^ 32 +
              weightedPkts count apps⟩ := by
        rw [Nat.mod_eq_of_lt hproducts.1]
        simp [groupWeight, weightedPkts, Nat.add_assoc]
      rw [hsums]
      exact hmembers.1.bind hrest

/-- Nothing is gained on the way, so a total is exact only when every member is. -/
theorem fits_of_addPktsPerSend
    {pkts : App → Called (Option Nat)} {count : App → Nat} {apps : List ImixApp}
    {totals result : ImixTotals}
    (hle : ∀ m ∈ apps, ∀ n, pkts m.iaApp = .ok (some n) → n ≤ count m.iaApp)
    (hresult : addPktsPerSend pkts totals apps = .ok (some result)) :
    result.totalWeight = totals.totalWeight + groupWeight apps ∧
      result.totalPktsPerSend ≤ totals.totalPktsPerSend + weightedPkts count apps ∧
      ((∀ m ∈ apps, m.iaWeight ≠ 0) →
        result.totalPktsPerSend = totals.totalPktsPerSend + weightedPkts count apps →
        ∀ m ∈ apps, pkts m.iaApp = .ok (some (count m.iaApp)) ∧
          m.iaWeight * count m.iaApp < 2 ^ 32) := by
  induction apps generalizing totals with
  | nil =>
      obtain rfl := Option.some.inj (Except.ok.inj hresult)
      exact ⟨rfl, le_rfl, fun _ _ m hm => absurd hm List.not_mem_nil⟩
  | cons m apps ih =>
      obtain ⟨pktsOfFirst, hfirst, hrest⟩ := bind_returns hresult
      cases pktsOfFirst with
      | none =>
          cases hrest
      | some n =>
          obtain ⟨hweight, hbound, hexact⟩ :=
            ih (fun other hother => hle other (List.mem_cons_of_mem _ hother)) hrest
          have hn : n ≤ count m.iaApp := hle m List.mem_cons_self n hfirst
          have hmul : m.iaWeight * n ≤ m.iaWeight * count m.iaApp := Nat.mul_le_mul_left _ hn
          have hmod : m.iaWeight * n % 2 ^ 32 ≤ m.iaWeight * n := Nat.mod_le _ _
          have hweights : groupWeight (m :: apps) = m.iaWeight + groupWeight apps := by
            simp [groupWeight]
          have hsum : weightedPkts count (m :: apps) =
              m.iaWeight * count m.iaApp + weightedPkts count apps := by
            simp [weightedPkts]
          dsimp only at hweight hbound hexact
          rw [hweights, hsum]
          refine ⟨by omega, by omega, fun hpos heq => ?_⟩
          -- The member and the rest are both at their bound.
          have hkept : m.iaWeight * n % 2 ^ 32 = m.iaWeight * n := by
            omega
          have hsame : m.iaWeight * n = m.iaWeight * count m.iaApp := by
            omega
          have hcount : n = count m.iaApp :=
            Nat.eq_of_mul_eq_mul_left (Nat.pos_of_ne_zero (hpos m List.mem_cons_self)) hsame
          rw [List.forall_mem_cons, ← hcount]
          refine ⟨⟨hfirst, by omega⟩, hexact (fun other hother => hpos other ?_) (by omega)⟩
          exact List.mem_cons_of_mem _ hother

/-- An application with a behaviour of its own is counted at any depth. -/
theorem pktsPerSend_basic
    (fuel : Nat) (app : BasicApp) :
    pktsPerSend mbuf room imix fuel (.basic app) =
      if BasicApp.lost imix.freed app then .error .freed
      else .ok (basicPktsPerSend mbuf room app) := by
  cases fuel <;> rfl

theorem pktsPerSend_basic_ok
    {fuel : Nat} {app : BasicApp} {pkts : Option Nat}
    (h : pktsPerSend mbuf room imix fuel (.basic app) = .ok pkts) :
    BasicApp.lost imix.freed app = false ∧ basicPktsPerSend mbuf room app = pkts := by
  rw [pktsPerSend_basic] at h
  cases hlost : BasicApp.lost imix.freed app with
  | true =>
      rw [hlost, if_pos rfl] at h
      cases h
  | false =>
      rw [hlost, if_neg Bool.false_ne_true] at h
      exact ⟨rfl, Except.ok.inj h⟩

/-- By induction on the level: what is counted is at most the exact value. -/
theorem pktsPerSend_le
    {fuel pkts : Nat}
    (hroom : 0 < room)
    (hlevel : LevelPkts room (members imix.groups) app n)
    (hpkts : pktsPerSend mbuf room imix fuel app = .ok (some pkts)) :
    pkts ≤ n := by
  induction hlevel generalizing fuel pkts with
  | basic app =>
      exact basicPktsPerSend_le hroom (pktsPerSend_basic_ok hpkts).2
  | group imixId count hmembers ih =>
      cases fuel with
      | zero =>
          cases hpkts
      | succ fuel =>
          obtain ⟨result, htotals, haverage⟩ := bind_returns hpkts
          cases result with
          | none =>
              cases haverage
          | some totals =>
              obtain ⟨hweight, hle, -⟩ :=
                fits_of_addPktsPerSend (fun m hm c hc => ih m hm hc) htotals
              rw [Nat.zero_add] at hweight hle
              have haverage' : averagePkts totals = some pkts := Except.ok.inj haverage
              unfold averagePkts at haverage'
              split_ifs at haverage' with hzero
              cases haverage'
              rw [roundedMean_eq, Nat.ceilDiv_eq_add_pred_div, ← hweight]
              exact (Nat.mod_le _ _).trans (Nat.div_le_div_right (by omega))

/-- A weighted average stays within 32 bits when the weighted counts do. -/
theorem average_lt
    {count : App → Nat} {apps : List ImixApp}
    (hproducts : ∀ m ∈ apps, m.iaWeight * count m.iaApp < 2 ^ 32)
    (hweights : ∀ m ∈ apps, m.iaWeight ≠ 0) :
    weightedPkts count apps ≤ groupWeight apps * (2 ^ 32 - 1) := by
  induction apps with
  | nil =>
      exact Nat.zero_le _
  | cons m apps ih =>
      rw [List.forall_mem_cons] at hproducts hweights
      have hrest := ih hproducts.2 hweights.2
      have hfirst : m.iaWeight * count m.iaApp ≤ m.iaWeight * (2 ^ 32 - 1) := by
        calc
          m.iaWeight * count m.iaApp ≤ 1 * (2 ^ 32 - 1) := by omega
          _ ≤ m.iaWeight * (2 ^ 32 - 1) :=
            Nat.mul_le_mul_right _ (Nat.one_le_iff_ne_zero.2 hweights.1)
      have hsum : weightedPkts count (m :: apps) =
          m.iaWeight * count m.iaApp + weightedPkts count apps := by
        simp [weightedPkts]
      have htotal : groupWeight (m :: apps) = m.iaWeight + groupWeight apps := by
        simp [groupWeight]
      rw [hsum, htotal, Nat.add_mul]
      exact Nat.add_le_add hfirst hrest

theorem averagePkts_eq
    {count : App → Nat} {apps : List ImixApp}
    (hvalid : testMgmtValidateImixGroup apps = true)
    (hproducts : ∀ m ∈ apps, m.iaWeight * count m.iaApp < 2 ^ 32) :
    averagePkts ⟨groupWeight apps, weightedPkts count apps⟩ =
      some (weightedPkts count apps ⌈/⌉ groupWeight apps) := by
  obtain ⟨hpos, hweights⟩ := weights_of_valid hvalid
  have hle : weightedPkts count apps ⌈/⌉ groupWeight apps ≤ 2 ^ 32 - 1 := by
    rw [ceilDiv_le_iff_le_mul hpos]
    exact average_lt hproducts hweights
  rw [averagePkts, if_neg hpos.ne', ← Nat.ceilDiv_eq_add_pred_div]
  refine congrArg some (Nat.mod_eq_of_lt ?_)
  dsimp only
  omega

theorem AppsFit.member
    {imixId : Nat} {m : ImixApp}
    (h : AppsFit mbuf room imix (.imix imixId))
    (hm : m ∈ members imix.groups imixId) :
    AppsFit mbuf room imix m.iaApp :=
  ⟨fun b hb => h.sends b (Below.member hm hb),
    fun i hi => h.products i (Below.member hm hi)⟩

/-- By induction on the level: where all below fits, the count is the exact value. -/
theorem levelPkts_ends
    (hroom : 0 < room)
    (hsmall : room < 2 ^ 16)
    (hlevel : LevelPkts room (members imix.groups) app n)
    (hvalid : ∀ imixId, Below (members imix.groups) app (.imix imixId) →
      testMgmtValidateImixGroup (members imix.groups imixId) = true)
    (hfit : AppsFit mbuf room imix app) :
    Ends (fun fuel => pktsPerSend mbuf room imix fuel app) (some n) := by
  induction hlevel with
  | basic app =>
      obtain ⟨hfits, hthere⟩ := hfit.sends app (Below.self _)
      refine ends_of_forall fun fuel => ?_
      rw [pktsPerSend_basic, hthere, if_neg Bool.false_ne_true,
        (basicPktsPerSend_iff hroom hsmall).2 hfits]
  | group imixId count hmembers ih =>
      have hproducts : ∀ m ∈ members imix.groups imixId, m.iaWeight * count m.iaApp < 2 ^ 32 :=
        fun m hm => hfit.products imixId (Below.self _) m hm _ (hmembers m hm)
      have htotals := ends_addPktsPerSend
        (fun m hm => ih m hm (fun i hi => hvalid i (Below.member hm hi)) (hfit.member hm))
        hproducts ⟨0, 0⟩
      rw [Nat.zero_add, Nat.zero_add] at htotals
      refine ends_of_succ (htotals.bind (ends_of_forall fun _ => ?_))
      rw [roundedMean_eq, ← averagePkts_eq (hvalid imixId (Below.self _)) hproducts]
      rfl

/-- The count of a send is exact when the send fits and its texts are there. -/
theorem fits_of_counted
    {b : BasicApp} {fuel : Nat}
    (hroom : 0 < room)
    (hsmall : room < 2 ^ 16)
    (hcounted : pktsPerSend mbuf room imix fuel (.basic b) =
      .ok (some (BasicApp.sendPkts room b))) :
    AppFits mbuf room b ∧ BasicApp.lost imix.freed b = false := by
  obtain ⟨hthere, hpkts⟩ := pktsPerSend_basic_ok hcounted
  exact ⟨(basicPktsPerSend_iff hroom hsmall).1 hpkts, hthere⟩

end Groups

/-! ## Rounding once -/

section Rounding

variable {room : Nat} {apps : Nat → List ImixApp}

theorem ceil_div
    {a b : Nat}
    (hb : 0 < b) :
    ⌈(a : ℚ) / b⌉₊ = a ⌈/⌉ b := by
  refine eq_of_forall_ge_iff fun c => ?_
  rw [Nat.ceil_le, div_le_iff₀ (Nat.cast_pos.2 hb), ceilDiv_le_iff_le_mul hb, mul_comm b c]
  exact_mod_cast Iff.rfl

theorem roundedOnce_basic
    (app : BasicApp) :
    RoundedOnce room apps (.basic app) := by
  intro n mean hlevel hmean
  rw [hlevel.unique (Evaluates.basic app), hmean.unique (Evaluates.basic app), Nat.ceil_natCast]

/-- A group without a group inside is rounded once. -/
theorem rounded_of_flat
    {imixId : Nat}
    (hvalid : testMgmtValidateImixGroup (apps imixId) = true)
    (hflat : ∀ m ∈ apps imixId, ∃ b, m.iaApp = .basic b) :
    RoundedOnce room apps (.imix imixId) := by
  intro n mean hlevel hmean
  cases hlevel with
  | group _ count hcounts =>
      cases hmean with
      | group _ means hmeans =>
          have hsame : ∀ m ∈ apps imixId, means m.iaApp = count m.iaApp := by
            intro m hm
            obtain ⟨b, hb⟩ := hflat m hm
            have hcount := hcounts m hm
            have hmean := hmeans m hm
            rw [hb] at hcount hmean ⊢
            rw [hcount.unique (Evaluates.basic b), hmean.unique (Evaluates.basic b)]
          have hsum : ((apps imixId).map fun m => (m.iaWeight, means m.iaApp)) =
              (apps imixId).map fun m => (m.iaWeight, (count m.iaApp : ℚ)) :=
            List.map_congr_left fun m hm => by rw [hsame m hm]
          have hmean : exactMean ((apps imixId).map fun m => (m.iaWeight, (count m.iaApp : ℚ))) =
              (weightedPkts count (apps imixId) : ℚ) / groupWeight (apps imixId) := by
            simp [exactMean, weightedPkts, groupWeight, Function.comp_def]
          rw [hsum, hmean, ceil_div (weights_of_valid hvalid).1, roundedMean_eq]

end Rounding

/-! ## The rounded product -/

theorem roundRate_bounds
    (rate : Nat) :
    roundRate rate ≤ rate ∧ rate < roundRate rate + minRatePrecision ∧
      (0 < roundRate rate ↔ 0 < rate) := by
  unfold roundRate minRatePrecision
  split_ifs with habove
  · omega
  · omega

/-- Rounding does not hide a product that overflows. -/
theorem roundRate_mod_iff
    (rate : Nat) :
    roundRate (rate % 2 ^ 32) = roundRate rate ↔ rate < 2 ^ 32 := by
  constructor
  · intro heq
    by_contra hover
    have hlow := roundRate_bounds (rate % 2 ^ 32)
    have hhigh := roundRate_bounds rate
    unfold minRatePrecision at hlow hhigh
    omega
  · intro hfits
    rw [Nat.mod_eq_of_lt hfits]

section Translation

variable {mbuf : Option Nat} {piMtu : BitVec 16} {imix : Imix}
variable {entry : TestCase} {sockopt : Sockopt} {client : Client} {sendRate : Nat}

theorem testInitMsgSendRate_ends
    {pkts : Nat}
    (hside : entry.side = .client client)
    (hrate : client.clRates.rcSendRate = some sendRate)
    (hpkts : Ends
      (fun fuel =>
        pktsPerSend mbuf (testMaxPktSize piMtu sockopt entry.side) imix fuel entry.tcApp)
      (some pkts)) :
    Ends (testInitMsgSendRate mbuf piMtu imix entry sockopt)
      (some (some (roundRate (pkts * sendRate % 2 ^ 32)))) := by
  have hcall : testInitMsgSendRate mbuf piMtu imix entry sockopt = fun fuel =>
      pktsPerSend mbuf (testMaxPktSize piMtu sockopt entry.side) imix fuel entry.tcApp >>=
        fun pkts => .ok (pkts.map fun n => some (roundRate (n * sendRate % 2 ^ 32))) := by
    funext fuel
    simp only [testInitMsgSendRate, hside, clientSendRate, hrate]
  rw [hcall]
  exact hpkts.bind (ends_of_forall fun _ => rfl)

/-- Exact totals and an exact count mean that all sends fit. -/
theorem SendRateExact.sends
    (hexact : SendRateExact mbuf piMtu imix entry sockopt sendRate)
    (hvalid : ∀ imixId, Below (members imix.groups) entry.tcApp (.imix imixId) →
      testMgmtValidateImixGroup (members imix.groups imixId) = true) :
    AppsFit mbuf (payloadRoom piMtu sockopt entry.side) imix entry.tcApp := by
  have hroom := hexact.room
  have hsmall := payloadRoom_lt piMtu sockopt entry.side
  have hsize := testMaxPktSize_eq hroom
  have hgroup : ∀ imixId, Below (members imix.groups) entry.tcApp (.imix imixId) →
      ∃ (count : App → Nat) (fuel : Nat), ∀ m ∈ members imix.groups imixId,
        LevelPkts (payloadRoom piMtu sockopt entry.side) (members imix.groups) m.iaApp
            (count m.iaApp) ∧
          pktsPerSend mbuf (payloadRoom piMtu sockopt entry.side) imix fuel m.iaApp =
            .ok (some (count m.iaApp)) ∧
          m.iaWeight * count m.iaApp < 2 ^ 32 := by
    intro imixId hbelow
    obtain ⟨count, hlevels, hends⟩ := hexact.weighted imixId hbelow
    rw [hsize] at hends
    obtain ⟨fuel, htotals⟩ := hends.ok
    have hmembers := (fits_of_addPktsPerSend
      (fun m hm c hc => pktsPerSend_le hroom (hlevels m hm) hc) htotals).2.2
      (weights_of_valid (hvalid imixId hbelow)).2 (Nat.zero_add _).symm
    exact ⟨count, fuel, fun m hm => ⟨hlevels m hm, hmembers m hm⟩⟩
  refine ⟨fun b hbelow => ?_, fun imixId hbelow m hm n hlevel => ?_⟩
  · rcases below_basic_cases hbelow with hself | ⟨imixId, hbelow', m, hm, hbasic⟩
    · have hcounted := hexact.counted
      rw [hself, hsize] at hcounted
      obtain ⟨fuel, hpkts⟩ := (hcounted _ (Evaluates.basic b)).ok
      rw [Nat.ceil_natCast] at hpkts
      exact fits_of_counted hroom hsmall hpkts
    · obtain ⟨count, fuel, hmembers⟩ := hgroup imixId hbelow'
      obtain ⟨hlevel, hpkts, -⟩ := hmembers m hm
      rw [hbasic] at hlevel hpkts
      rw [hlevel.unique (Evaluates.basic b)] at hpkts
      exact fits_of_counted hroom hsmall hpkts
  · obtain ⟨count, fuel, hmembers⟩ := hgroup imixId hbelow
    obtain ⟨hlevel', -, hproduct⟩ := hmembers m hm
    rw [hlevel.unique hlevel']
    exact hproduct

/-- Where all sends fit, the totals of every group are exact. -/
theorem weighted_of_sends
    {cfg : TestCase}
    (hroom : 0 < payloadRoom piMtu sockopt entry.side)
    (hheld : Held cfg imix.groups entry.tcApp)
    (hvalid : ∀ imixId, Below (members imix.groups) entry.tcApp (.imix imixId) →
      testMgmtValidateImixGroup (members imix.groups imixId) = true)
    (hfit : AppsFit mbuf (payloadRoom piMtu sockopt entry.side) imix entry.tcApp)
    {imixId : Nat}
    (hbelow : Below (members imix.groups) entry.tcApp (.imix imixId)) :
    ∃ count : App → Nat,
      (∀ m ∈ members imix.groups imixId,
        LevelPkts (payloadRoom piMtu sockopt entry.side) (members imix.groups) m.iaApp
          (count m.iaApp)) ∧
      Ends
        (fun fuel => addPktsPerSend
          (pktsPerSend mbuf (testMaxPktSize piMtu sockopt entry.side) imix fuel) ⟨0, 0⟩
          (members imix.groups imixId))
        (some ⟨groupWeight (members imix.groups imixId),
          weightedPkts count (members imix.groups imixId)⟩) := by
  have hlevel : ∃ n, LevelPkts (payloadRoom piMtu sockopt entry.side) (members imix.groups)
      (.imix imixId) n := evaluates_of_held (hheld.descend hbelow)
  obtain ⟨n, hlevel⟩ := hlevel
  cases hlevel with
  | group _ count hmembers =>
      have hsmall := payloadRoom_lt piMtu sockopt entry.side
      have htotals := ends_addPktsPerSend
        (fun m hm => levelPkts_ends hroom hsmall (hmembers m hm)
          (fun i hi => hvalid i (hbelow.trans (Below.member hm hi)))
          ⟨fun b hb => hfit.sends b (hbelow.trans (Below.member hm hb)),
            fun i hi => hfit.products i (hbelow.trans (Below.member hm hi))⟩)
        (fun m hm => hfit.products imixId hbelow m hm _ (hmembers m hm)) ⟨0, 0⟩
      rw [Nat.zero_add, Nat.zero_add] at htotals
      rw [testMaxPktSize_eq hroom]
      exact ⟨count, hmembers, htotals⟩

/-- For a client that holds valid groups. -/
theorem sendRateExact_iff
    {cfg : TestCase}
    (hside : entry.side = .client client)
    (hrate : client.clRates.rcSendRate = some sendRate)
    (hheld : Held cfg imix.groups entry.tcApp)
    (hvalid : ∀ imixId, Below (members imix.groups) entry.tcApp (.imix imixId) →
      testMgmtValidateImixGroup (members imix.groups imixId) = true) :
    SendRateExact mbuf piMtu imix entry sockopt sendRate ↔
      SendRateFits mbuf piMtu imix entry sockopt sendRate := by
  have hsmall := payloadRoom_lt piMtu sockopt entry.side
  have hlevel : ∃ n, LevelPkts (payloadRoom piMtu sockopt entry.side) (members imix.groups)
      entry.tcApp n := evaluates_of_held hheld
  obtain ⟨n, hlevel⟩ := hlevel
  constructor
  · intro hexact
    have hfit := hexact.sends hvalid
    have hcounted := hexact.counted
    rw [testMaxPktSize_eq hexact.room] at hcounted
    refine ⟨hexact.room, hfit, fun n' mean hlevel' hmean => ?_, fun mean hmean => ?_⟩
    · have hends := levelPkts_ends hexact.room hsmall hlevel' hvalid hfit
      exact Option.some.inj (hends.unique (hcounted mean hmean))
    · rcases Nat.eq_zero_or_pos sendRate with hzero | hpos
      · exact .inl hzero
      · have hvalue := (hexact.exact mean hmean).unique
          (testInitMsgSendRate_ends hside hrate (hexact.counted mean hmean))
        have hmod := (roundRate_mod_iff _).1 (Option.some.inj (Option.some.inj hvalue)).symm
        have hproduct := (roundRate_bounds _).2.2.1 (hexact.positive mean hmean hpos)
        exact .inr ⟨Nat.pos_of_mul_pos_right hproduct, hmod⟩
  · intro hfits
    have hends := levelPkts_ends hfits.room hsmall hlevel hvalid hfits.sends
    have hcounted : ∀ mean, MeanPkts (payloadRoom piMtu sockopt entry.side)
        (members imix.groups) entry.tcApp mean →
        Ends
          (fun fuel =>
            pktsPerSend mbuf (testMaxPktSize piMtu sockopt entry.side) imix fuel entry.tcApp)
          (some ⌈mean⌉₊) := by
      intro mean hmean
      rw [testMaxPktSize_eq hfits.room, ← hfits.rounded n mean hlevel hmean]
      exact hends
    refine ⟨hfits.room, fun imixId hbelow => ?_, evaluates_of_held hheld, hcounted,
      fun mean hmean => ?_, fun mean hmean hpos => ?_⟩
    · exact weighted_of_sends hfits.room hheld hvalid hfits.sends hbelow
    · have hproduct : ⌈mean⌉₊ * sendRate < 2 ^ 32 := by
        rcases hfits.product mean hmean with hzero | ⟨-, hproduct⟩
        · simp [hzero]
        · exact hproduct
      have hvalue := testInitMsgSendRate_ends hside hrate (hcounted mean hmean)
      rw [Nat.mod_eq_of_lt hproduct] at hvalue
      exact hvalue
    · rcases hfits.product mean hmean with hzero | ⟨hpkts, -⟩
      · omega
      · exact (roundRate_bounds _).2.2.2 (Nat.mul_pos hpkts hpos)

end Translation

section Runs

variable {devCount : Nat} {txOffloadCapa : Nat → EthSockopt} {imix : Imix}
variable {left : Nat → Fin tpgTestMaxEntries → TestEntry}
variable {inputs : List (Nat × Input)} {s : System}

/--
The packet rate of a client is the exact one when a packet has room for data, the headers fit
their mbuf and are written from texts that are there, no count of packets and no product leaves 32
bits, a send takes packets at all, and rounding up for a group inside a group changes nothing.
-/
theorem sendRate_exact_iff
    (hgroups : ∀ imixId, (imix.groups imixId).tigConfigured = false)
    (hsteps : Steps (systemStep devCount txOffloadCapa) (System.initial imix left) inputs s)
    {ethPort : Nat} {index : Fin tpgTestMaxEntries}
    (hconfigured : ((s.envs ethPort).teTestCases index).teosConfigured = true)
    {client : Client} {sendRate : Nat}
    (hside : ((s.envs ethPort).teTestCases index).cfg.side = .client client)
    (hrate : client.clRates.rcSendRate = some sendRate)
    (mbuf : Option Nat) (piMtu : BitVec 16) :
    SendRateExact mbuf piMtu s.imix ((s.envs ethPort).teTestCases index).cfg
        ((s.envs ethPort).teTestCases index).sockopt sendRate ↔
      SendRateFits mbuf piMtu s.imix ((s.envs ethPort).teTestCases index).cfg
        ((s.envs ethPort).teTestCases index).sockopt sendRate := by
  have hchecked := (systemChecked_run hgroups hsteps ethPort).1
  exact sendRateExact_iff hside hrate (hchecked.book.held index hconfigured)
    fun imixId hbelow => hchecked.valid_below hconfigured hbelow

end Runs

/-- A RAW client over TCP that sends `reqPlen` bytes, `sendRate` times per second. -/
def sendingCase (reqPlen sendRate : Nat) : TestCase :=
  { rawClientCase with
    side := .client
      { clSrcIps := ⟨tpgIpv4 0x0A000001, tpgIpv4 0x0A000001⟩
        clDstIps := ⟨tpgIpv4 0x0A000002, tpgIpv4 0x0A000002⟩
        clL4 := ⟨.tcp, ⟨10000, 10009⟩, ⟨80, 80⟩⟩
        clRates := ⟨none, none, some sendRate⟩
        clMcastSrc := false }
    tcApp := .basic (.rawClient ⟨reqPlen, 200, ⟨false, false⟩, ⟨false, false⟩⟩) }

/-- Asks for a window of no bytes. -/
def noWindow : TcpSockoptMsg where
  toWinSize := ⟨true, 0⟩
  toSynRetryCnt := ⟨false, 0⟩
  toSynAckRetryCnt := ⟨false, 0⟩
  toDataRetryCnt := ⟨false, 0⟩
  toRetryCnt := ⟨false, 0⟩
  toRto := ⟨false, 0⟩
  toFinTo := ⟨false, 0⟩
  toTwaitTo := ⟨false, 0⟩
  toOrphanTo := ⟨false, 0⟩
  toSkipTimewait := ⟨false, false⟩
  toAckDelay := ⟨false, false⟩

/-- All ports before their first test cases. -/
def freshSystem : System :=
  System.initial noGroups fun _ => nothingLeft

/-- After adding a client on the first port. -/
def oneClient (cfg : TestCase) : System :=
  freshSystem.setPort 0
    ⟨(initial noGroups nothingLeft).env.addEntry onePort sampleIndex cfg, noGroups⟩

/-- 33 sends of 3 packets, with the default window of 1024 bytes, make 99 packets. -/
theorem sendRate_exact_iff_raw :
    SendRateExact none 1500#16 noGroups (sendingCase 2500 33)
        (testInitSockoptDefaults onePort (sendingCase 2500 33)) 33 ∧
      testInitMsgSendRate none 1500#16 noGroups (sendingCase 2500 33)
        (testInitSockoptDefaults onePort (sendingCase 2500 33)) 0 = .ok (some (some 50)) := by
  refine ⟨?_, rfl⟩
  refine (@sendRate_exact_iff 1 onePort.txOffloadCapa noGroups (fun _ => nothingLeft)
    [(0, .call (.addTestCase (some (sendingCase 2500 33))))] (oneClient (sendingCase 2500 33))
    (fun _ => rfl) ⟨_, ⟨rfl, _, ⟨0, none, rfl⟩, rfl⟩, rfl⟩ 0 3 rfl _ 33 rfl rfl none 1500#16).2 ?_
  refine ⟨by decide +kernel, ⟨?_, ?_⟩, roundedOnce_basic _, fun mean hmean => ?_⟩
  · rintro b ⟨⟩
    exact ⟨⟨trivial, by decide +kernel⟩, rfl⟩
  · rintro imixId ⟨⟩
  · rw [hmean.unique (Evaluates.basic _), Nat.ceil_natCast]
    exact .inr (by decide +kernel)

/-- A RAW client without timestamps. -/
def rawApp (reqPlen : Nat) : BasicApp :=
  .rawClient ⟨reqPlen, 200, ⟨false, false⟩, ⟨false, false⟩⟩

def rawMember (weight reqPlen : Nat) : ImixApp :=
  ⟨weight, .basic (rawApp reqPlen)⟩

/-- Nine sends of one packet for each one of two. -/
def innerGroup : List ImixApp :=
  [rawMember 9 100, rawMember 1 1100]

/-- The group 1 twice for each send of three packets. -/
def outerGroup : List ImixApp :=
  [⟨2, .imix 1⟩, rawMember 1 2100]

def nestedCase : TestCase :=
  { sendingCase 100 10 with tcApp := .imix 0 }

def innerAdded : Mgmt :=
  (initial noGroups nothingLeft).setGroup 1 ⟨innerGroup, true, false, 0, 0⟩

def outerAdded : Mgmt :=
  innerAdded.setGroup 0 ⟨outerGroup, true, false, 0, 0⟩

def nestedAdded : Mgmt :=
  ⟨outerAdded.env.addEntry onePort sampleIndex nestedCase,
    { outerAdded.imix with
      groups := reference nestedCase (reference nestedCase outerAdded.imix.groups 1) 0 }⟩

def nestedClient : System :=
  ((freshSystem.setPort 0 innerAdded).setPort 0 outerAdded).setPort 0 nestedAdded

theorem steps_nestedClient :
    Steps (systemStep 1 onePort.txOffloadCapa) freshSystem
      [(0, .call (.addImixGroup 1 (some innerGroup))),
        (0, .call (.addImixGroup 0 (some outerGroup))),
        (0, .call (.addTestCase (some nestedCase)))] nestedClient :=
  ⟨_, ⟨trivial, innerAdded, ⟨0, none, rfl⟩, rfl⟩, _, ⟨trivial, outerAdded, ⟨0, none, rfl⟩, rfl⟩,
    _, ⟨rfl, nestedAdded, ⟨2, none, rfl⟩, rfl⟩, rfl⟩

/-- The means of the members of the outer group. -/
def memberMeans : App → ℚ
  | .basic app => BasicApp.sendPkts 1024 app
  | .imix _ => exactMean [(9, 1), (1, 2)]
  | .max => 0

theorem meanPkts_nested :
    MeanPkts 1024 (members nestedAdded.imix.groups) (.imix 0) (26 / 15) := by
  have hinner : MeanPkts 1024 (members nestedAdded.imix.groups) (.imix 1)
      (exactMean (innerGroup.map fun m => (m.iaWeight, memberMeans m.iaApp))) := by
    refine Evaluates.group 1 memberMeans fun m hm => ?_
    rcases List.mem_pair.1 hm with rfl | rfl
    · exact Evaluates.basic _
    · exact Evaluates.basic _
  have hinner' : exactMean (innerGroup.map fun m => (m.iaWeight, memberMeans m.iaApp)) =
      exactMean [(9, 1), (1, 2)] := by
    have hone : BasicApp.sendPkts 1024 (rawApp 100) = 1 := rfl
    have htwo : BasicApp.sendPkts 1024 (rawApp 1100) = 2 := rfl
    simp [innerGroup, rawMember, memberMeans, hone, htwo]
  have houter : MeanPkts 1024 (members nestedAdded.imix.groups) (.imix 0)
      (exactMean (outerGroup.map fun m => (m.iaWeight, memberMeans m.iaApp))) := by
    refine Evaluates.group 0 memberMeans fun m hm => ?_
    rcases List.mem_pair.1 hm with rfl | rfl
    · rw [hinner'] at hinner
      exact hinner
    · exact Evaluates.basic _
  have hthree : BasicApp.sendPkts 1024 (rawApp 2100) = 3 := rfl
  have hvalue : exactMean (outerGroup.map fun m => (m.iaWeight, memberMeans m.iaApp)) =
      26 / 15 := by
    simp [outerGroup, rawMember, memberMeans, hthree, exactMean]
    norm_num
  rw [hvalue] at houter
  exact houter

/-- After adding a client and taking away its window. -/
def windowTaken : System :=
  (oneClient (sendingCase 100 10)).setPort 0
    { env :=
        ((initial noGroups nothingLeft).env.addEntry onePort sampleIndex
          (sendingCase 100 10)).setSockopt sampleIndex
          { testInitSockoptDefaults onePort (sendingCase 100 10) with
            soTcp := { (testInitSockoptDefaults onePort (sendingCase 100 10)).soTcp with
              tcpoWinSize := 0 } }
      imix := noGroups }

theorem steps_windowTaken :
    Steps (systemStep 1 onePort.txOffloadCapa) freshSystem
      [(0, .call (.addTestCase (some (sendingCase 100 10)))),
        (0, .call (.setTcpSockopt 3 (some noWindow)))] windowTaken :=
  ⟨oneClient (sendingCase 100 10), ⟨rfl, _, ⟨0, none, rfl⟩, rfl⟩,
    _, ⟨trivial, _, ⟨0, none, rfl⟩, rfl⟩, rfl⟩

theorem steps_oneClient_large :
    Steps (systemStep 1 onePort.txOffloadCapa) freshSystem
      [(0, .call (.addTestCase (some (sendingCase 5000000 1000000))))]
      (oneClient (sendingCase 5000000 1000000)) :=
  ⟨_, ⟨rfl, _, ⟨0, none, rfl⟩, rfl⟩, rfl⟩

/--
A window of no bytes is accepted and divides by zero; a million sends of five megabytes are accepted
and come out as 588032700 packets per second; and a group inside a group is rounded twice, so that
three packets are counted where the mean is less than two.
-/
theorem sendRate_not_exact :
    (∃ s, Steps (systemStep 1 onePort.txOffloadCapa) freshSystem
        [(0, .call (.addTestCase (some (sendingCase 100 10)))),
          (0, .call (.setTcpSockopt 3 (some noWindow)))] s ∧
      ¬ SendRateExact none 1500#16 s.imix ((s.envs 0).teTestCases 3).cfg
        ((s.envs 0).teTestCases 3).sockopt 10) ∧
    (∃ s, Steps (systemStep 1 onePort.txOffloadCapa) freshSystem
        [(0, .call (.addTestCase (some (sendingCase 5000000 1000000))))] s ∧
      ¬ SendRateExact none 1500#16 s.imix ((s.envs 0).teTestCases 3).cfg
        ((s.envs 0).teTestCases 3).sockopt 1000000) ∧
    ∃ s, Steps (systemStep 1 onePort.txOffloadCapa) freshSystem
        [(0, .call (.addImixGroup 1 (some innerGroup))),
          (0, .call (.addImixGroup 0 (some outerGroup))),
          (0, .call (.addTestCase (some nestedCase)))] s ∧
      ¬ SendRateExact none 1500#16 s.imix ((s.envs 0).teTestCases 3).cfg
        ((s.envs 0).teTestCases 3).sockopt 10 := by
  refine ⟨⟨_, steps_windowTaken, fun hexact => ?_⟩,
    ⟨_, steps_oneClient_large, fun hexact => ?_⟩, ⟨_, steps_nestedClient, fun hexact => ?_⟩⟩
  · exact absurd hexact.room (by decide +kernel)
  · have hcode := testInitMsgSendRate_ends rfl rfl (hexact.counted _ (Evaluates.basic _))
    have hsame := (hexact.exact _ (Evaluates.basic _)).unique hcode
    rw [Nat.ceil_natCast] at hsame
    exact absurd hsame (by decide +kernel)
  · obtain ⟨fuel, hrate⟩ := hexact.exact _ meanPkts_nested
    have hcode := hrate (fuel + 3) (Nat.le_add_right fuel 3)
    have hceil : ⌈(26 / 15 : ℚ)⌉₊ = 2 := by
      rw [Nat.ceil_eq_iff (by decide)]
      norm_num
    rw [hceil] at hcode
    cases hcode

end SendRates
end Warp17
