import Mathlib.Data.List.TakeWhile
import Warp17.MbufChains
import Warp17.DelimiterScan

/-!
# The HTTP header parser

The parser of src/src/appl/tpg_test_http_1_1_app.c reads the lines of a header out of a chain of
mbufs.  A line that has not ended stays in the chain, and the session remembers in `ha_recv` how
far it was scanned.  That field shares its storage with the send pointer, so its low half is what
a scan would find there.

Offsets and lengths have 32 bits; they are natural numbers here, with the wraps written out where
they can happen.

**Results**
- `httpScanLine_line`, `httpScanLine_more`: a resumed scan finds the first line of the bytes at an
  offset, or leaves the offset that `DelimiterScan` asks for.
- `httpParseHdrLine_eq`: what a line does is a function of its bytes.
- `httpParseHdrLoop_complete`, `httpParseHdrLoop_incomplete`: the whole header, and a part of it.
-/

namespace Warp17
namespace HttpParser

open MbufChains DelimiterScan

/-- `http_state_t` -/
inductive HttpState
  | clSendReq
  | clParseRespHdr
  | clRecvRespBody
  | srvParseReqHdr
  | srvRecvReqBody
  | srvSendResp
  | closed
deriving DecidableEq, Repr

/-- The union of `ha_recv` and `ha_send`. -/
inductive HttpPtr
  | recv (scanOffset : Nat)
  | send (mbufChain : Chain) (dataOffset dataLen : Nat)
deriving DecidableEq, Repr

/-- `APP_RECV_SCAN_OFFSET`: in a send pointer it is the low half of the mbuf pointer. -/
def HttpPtr.scanOffset : HttpPtr → Nat
  | .recv scanOffset => scanOffset
  | .send [] _ _ => 0
  | .send (m :: _) _ _ => m.id % 2 ^ 32

/-- `http_app_t` -/
structure HttpApp where
  haPtr : HttpPtr
  haContentLength : Nat
  haReqCnt : Nat
  haRespCnt : Nat
  haState : HttpState
deriving DecidableEq, Repr

/-- `tpg_http_stats_t` without the counters of closed connections. -/
structure HttpStats where
  hstsReqCnt : Nat
  hstsRespCnt : Nat
  hstsInvalidMsgCnt : Nat
  hstsNoContentLenCnt : Nat
  hstsTransferEncCnt : Nat
deriving DecidableEq, Repr

/-- `HTTP_CONTENT_LENGTH_INVALID` -/
def httpContentLengthInvalid : Nat :=
  2 ^ 32 - 1

def cr : UInt8 :=
  13

def lf : UInt8 :=
  10

/-- `HTTP_CONTENT_LEN_STR`, `"Content-Length:"` -/
def httpContentLenStr : List UInt8 :=
  [67, 111, 110, 116, 101, 110, 116, 45, 76, 101, 110, 103, 116, 104, 58]

/-- `HTTP_TRANSFER_ENC_STR`, `"Transfer-Encoding:"` -/
def httpTransferEncStr : List UInt8 :=
  [84, 114, 97, 110, 115, 102, 101, 114, 45, 69, 110, 99, 111, 100, 105, 110, 103, 58]

def isblank (c : UInt8) : Bool :=
  c == 32 || c == 9

def isdigit (c : UInt8) : Bool :=
  decide (48 ≤ c.toNat ∧ c.toNat ≤ 57)

/-- What `app_data_get_from_offset` returns and stores. -/
def appDataGetFromOffset (mbuf : Chain) (offset : Nat) : Chain × Nat :=
  if (chainPktLen mbuf).toNat ≤ offset then ([], 0)
  else seekOffset mbuf offset

/-! ## Consuming a line -/

/-- A position in a line: the mbuf, the offset in it and the bytes of the line that are left. -/
structure Cursor where
  line : Chain
  offset : Nat
  lineLen : Nat
deriving DecidableEq, Repr

/-- The loops over the characters of a line that stop at the first that does not satisfy `p`. -/
def walkWhile {σ : Type} (p : UInt8 → Bool) (step : σ → UInt8 → σ) :
    Chain → Nat → Nat → σ → Cursor × σ
  | [], offset, lineLen, acc => (⟨[], offset, lineLen⟩, acc)
  | m :: rest, offset, lineLen, acc =>
      let part := m.data.drop offset
      let taken := (part.take lineLen).takeWhile p
      if taken.length < part.length ∨ lineLen - taken.length = 0 then
        (⟨m :: rest, offset + taken.length, lineLen - taken.length⟩, taken.foldl step acc)
      else
        walkWhile p step rest 0 (lineLen - taken.length) (taken.foldl step acc)

/-- `none` where the source returns false. -/
def httpConsumeWs (cur : Cursor) : Option Cursor :=
  let out := (walkWhile isblank (fun _ _ => ()) cur.line cur.offset cur.lineLen ()).1
  if out.lineLen ≠ 0 then some out else none

/-- `*result = *result * 10 + (part_data[i] - '0')` -/
def addDigit (result : Nat) (c : UInt8) : Nat :=
  (result * 10 + (c.toNat - 48)) % 2 ^ 32

def httpParseUint32 (cur : Cursor) : Option (Cursor × Nat) :=
  let out := walkWhile isdigit addDigit cur.line cur.offset cur.lineLen 0
  if out.1.lineLen ≠ 0 then some out else none

/-- The loop of `http_consume_string`. -/
def consumeString : List UInt8 → Chain → Nat → Nat → Option Cursor
  | val, [], offset, lineLen => if val = [] then some ⟨[], offset, lineLen⟩ else none
  | val, m :: rest, offset, lineLen =>
      let part := m.data.drop offset
      let cmpLen := min val.length (min part.length lineLen)
      if val.take cmpLen ≠ part.take cmpLen then none
      else if val.drop cmpLen = [] then some ⟨m :: rest, offset + cmpLen, lineLen - cmpLen⟩
      else if lineLen - cmpLen = 0 then none
      else consumeString (val.drop cmpLen) rest 0 (lineLen - cmpLen)

def httpConsumeString (val : List UInt8) (cur : Cursor) : Option Cursor :=
  consumeString val cur.line cur.offset cur.lineLen

/-- The session when the line holds the field, which need not set the length. -/
def httpParseContentLength (app : HttpApp) (cur : Cursor) : Option HttpApp := do
  let cur ← httpConsumeString httpContentLenStr cur
  let cur ← httpConsumeWs cur
  let (cur, contentLen) ← httpParseUint32 cur
  -- only a number followed by the line end is accepted
  if cur.lineLen = 2 then some { app with haContentLength := contentLen }
  else some app

def httpParseTransferEnc (cur : Cursor) : Bool :=
  ((httpConsumeString httpTransferEncStr cur).bind httpConsumeWs).isSome

/-- The last component is `*invalid`, which is false before. -/
def httpParseHdrLine (app : HttpApp) (stats : HttpStats) (hdrLine : Chain) (offset len : Nat) :
    HttpApp × HttpStats × Bool :=
  let at_ := appDataGetFromOffset hdrLine offset
  let cur : Cursor := ⟨at_.1, at_.2, len⟩
  match httpParseContentLength app cur with
  | some app => (app, stats, false)
  | none =>
      if httpParseTransferEnc cur then
        (app, { stats with hstsTransferEncCnt := stats.hstsTransferEncCnt + 1 }, true)
      else (app, stats, false)

/-! ## Scanning for line ends -/

/-- The walk of `http_scan_line` ends with a line, or with what it has seen of one. -/
inductive LineScan
  | ended (lineLen : Nat)
  | pending (lineLen : Nat) (lastChar : UInt8)
deriving DecidableEq, Repr

def scanMbufs : Chain → Nat → Nat → UInt8 → LineScan
  | [], _, lineLen, lastChar => .pending lineLen lastChar
  | m :: rest, offset, lineLen, lastChar =>
      match scan cr lf lastChar 0 (m.data.drop offset) with
      | .found i => .ended (lineLen + i + 1)
      | .more c => scanMbufs rest 0 (lineLen + (m.data.length - offset)) c

/-- The length of the line at the offset, or 0. -/
def httpScanLine (app : HttpApp) (data : Chain) (offset : Nat) : HttpApp × Nat :=
  let scanOffset := app.haPtr.scanOffset
  let start := appDataGetFromOffset data ((offset + scanOffset) % 2 ^ 32)
  match scanMbufs start.1 start.2 scanOffset 0 with
  | .ended lineLen => ({ app with haPtr := .recv 0 }, lineLen)
  | .pending lineLen lastChar =>
      ({ app with haPtr := .recv (if lastChar = cr then lineLen - 1 else lineLen) }, 0)

/-- What `http_parse_hdr` leaves: `*delivered`, `*invalid` and its result. -/
structure HdrOutcome where
  app : HttpApp
  stats : HttpStats
  delivered : Nat
  invalid : Bool
  headerDone : Bool
deriving DecidableEq, Repr

/-- The loop of `http_parse_hdr`, from an offset that was reached without an invalid line. -/
def httpParseHdrLoop (data : Chain) (app : HttpApp) (stats : HttpStats) (offset delivered : Nat) :
    HdrOutcome :=
  if offset < (chainPktLen data).toNat then
    match httpScanLine app data offset with
    | (app, lineLen) =>
        if lineLen = 0 then ⟨app, stats, delivered, false, false⟩
        else if lineLen = 2 then ⟨app, stats, delivered + lineLen, false, true⟩
        else
          match httpParseHdrLine app stats data offset lineLen with
          | (app, stats, true) => ⟨app, stats, delivered + lineLen, true, false⟩
          | (app, stats, false) =>
              httpParseHdrLoop data app stats (offset + lineLen) (delivered + lineLen)
  else ⟨app, stats, delivered, false, false⟩
termination_by (chainPktLen data).toNat - offset

def httpParseHdr (app : HttpApp) (stats : HttpStats) (data : Chain) (delivered : Nat) :
    HdrOutcome :=
  httpParseHdrLoop data app stats 0 delivered

/-! ## The bytes of a chain -/

section Bytes

/-- The chain holds these bytes, and its packet length is their number. -/
structure Lays (c : Chain) (bytes : List UInt8) : Prop where
  bytes_eq : chainBytes c = bytes
  pktLen : (chainPktLen c).toNat = bytes.length

/-- The bytes from an offset in the first mbuf on. -/
def chainFrom : Chain → Nat → List UInt8
  | [], _ => []
  | m :: rest, offset => m.data.drop offset ++ chainBytes rest

@[simp] theorem chainFrom_zero
    (c : Chain) :
    chainFrom c 0 = chainBytes c := by
  cases c <;> rfl

theorem Lays.lt
    {c : Chain} {bytes : List UInt8}
    (hc : Lays c bytes) :
    bytes.length < 2 ^ 32 := by
  rw [← hc.pktLen]
  exact (chainPktLen c).isLt

theorem chainFrom_seekOffset
    {c : Chain} {offset : Nat}
    (hoffset : offset < (chainBytes c).length) :
    chainFrom (seekOffset c offset).1 (seekOffset c offset).2 = (chainBytes c).drop offset := by
  induction c generalizing offset with
  | nil =>
      cases hoffset
  | cons m rest ih =>
      rw [chainBytes_cons, List.length_append] at hoffset
      rw [chainBytes_cons, seekOffset]
      split
      next hle =>
        rw [ih (by omega), List.drop_append, List.drop_of_length_le hle, List.nil_append]
      next hlt =>
        rw [List.drop_append_of_le_length (by omega)]
        rfl

theorem chainFrom_appDataGetFromOffset
    {c : Chain} {bytes : List UInt8}
    (hc : Lays c bytes)
    (offset : Nat) :
    chainFrom (appDataGetFromOffset c offset).1 (appDataGetFromOffset c offset).2 =
      bytes.drop offset := by
  unfold appDataGetFromOffset
  rw [hc.pktLen]
  split
  next hle =>
    exact (List.drop_of_length_le hle).symm
  next hlt =>
    rw [← hc.bytes_eq] at hlt ⊢
    exact chainFrom_seekOffset (by omega)

end Bytes

/-! ## What a line does -/

section Lines

/-- The line at the cursor is `l`, and `r` follows it in the chain. -/
structure Cursor.Holds (cur : Cursor) (l r : List UInt8) : Prop where
  bytes : chainFrom cur.line cur.offset = l ++ r
  len : cur.lineLen = l.length

/-- Moving forward inside the first mbuf. -/
theorem Cursor.Holds.advance
    {m : Mbuf} {rest : Chain} {offset lineLen k : Nat} {l r : List UInt8}
    (hcur : Cursor.Holds ⟨m :: rest, offset, lineLen⟩ l r)
    (hpart : k ≤ (m.data.drop offset).length)
    (hline : k ≤ l.length) :
    Cursor.Holds ⟨m :: rest, offset + k, lineLen - k⟩ (l.drop k) r := by
  refine ⟨?_, ?_⟩
  · calc m.data.drop (offset + k) ++ chainBytes rest
        = (m.data.drop offset ++ chainBytes rest).drop k := by
          rw [List.drop_append_of_le_length hpart, List.drop_drop]
      _ = (l ++ r).drop k := congrArg (List.drop k) hcur.bytes
      _ = l.drop k ++ r := List.drop_append_of_le_length hline
  · rw [List.length_drop, ← hcur.len]

/-- Moving to the next mbuf. -/
theorem Cursor.Holds.next
    {m : Mbuf} {rest : Chain} {offset lineLen : Nat} {l r : List UInt8}
    (hcur : Cursor.Holds ⟨m :: rest, offset, lineLen⟩ l r)
    (hline : (m.data.drop offset).length ≤ l.length) :
    Cursor.Holds ⟨rest, 0, lineLen - (m.data.drop offset).length⟩
      (l.drop (m.data.drop offset).length) r := by
  refine ⟨?_, ?_⟩
  · calc chainFrom rest 0
        = (m.data.drop offset ++ chainBytes rest).drop (m.data.drop offset).length := by
          rw [List.drop_left, chainFrom_zero]
      _ = (l ++ r).drop (m.data.drop offset).length := congrArg (List.drop _) hcur.bytes
      _ = l.drop (m.data.drop offset).length ++ r := List.drop_append_of_le_length hline
  · rw [List.length_drop (l := l), ← hcur.len]

/-- The first mbuf holds all of the line, or the line goes on after it. -/
theorem Cursor.Holds.cases
    {m : Mbuf} {rest : Chain} {offset lineLen : Nat} {l r : List UInt8}
    (hcur : Cursor.Holds ⟨m :: rest, offset, lineLen⟩ l r) :
    (∃ u, m.data.drop offset = l ++ u) ∨
      ∃ w, w ≠ [] ∧ l = m.data.drop offset ++ w := by
  have hbytes : m.data.drop offset ++ chainBytes rest = l ++ r := hcur.bytes
  rcases List.append_eq_append_iff.1 hbytes with ⟨w, hl, -⟩ | ⟨u, hpart, -⟩
  · rcases eq_or_ne w [] with rfl | hw
    · exact Or.inl ⟨[], by rw [hl, List.append_nil, List.append_nil]⟩
    · exact Or.inr ⟨w, hw, hl⟩
  · exact Or.inl ⟨u, hpart⟩

theorem drop_length_takeWhile
    (p : UInt8 → Bool) (l : List UInt8) :
    l.drop (l.takeWhile p).length = l.dropWhile p := by
  calc l.drop (l.takeWhile p).length
      = (l.takeWhile p ++ l.dropWhile p).drop (l.takeWhile p).length := by
        rw [List.takeWhile_append_dropWhile]
    _ = l.dropWhile p := List.drop_left

/-- By induction on the chain: the walk stops in an mbuf, or all of it satisfies `p`. -/
theorem walkWhile_spec
    {σ : Type} (p : UInt8 → Bool) (step : σ → UInt8 → σ)
    {line : Chain} {offset lineLen : Nat} {l r : List UInt8} (acc : σ)
    (hcur : Cursor.Holds ⟨line, offset, lineLen⟩ l r) :
    (walkWhile p step line offset lineLen acc).1.Holds (l.dropWhile p) r ∧
      (walkWhile p step line offset lineLen acc).2 = (l.takeWhile p).foldl step acc := by
  induction line generalizing offset lineLen l acc with
  | nil =>
      obtain ⟨rfl, rfl⟩ := List.append_eq_nil_iff.1 hcur.bytes.symm
      exact ⟨⟨rfl, hcur.len⟩, rfl⟩
  | cons m rest ih =>
      have hlen : lineLen = l.length := hcur.len
      have hle := (List.takeWhile_prefix p (l := l)).length_le
      rcases hcur.cases with ⟨u, hu⟩ | ⟨w, hw, hl⟩
      · -- the line ends in this mbuf
        have htake : (m.data.drop offset).take lineLen = l := by
          rw [hu, hlen, List.take_left]
        have hpart : l.length ≤ (m.data.drop offset).length := by
          rw [hu, List.length_append]
          omega
        rw [walkWhile, htake, if_pos (by omega)]
        refine ⟨?_, rfl⟩
        rw [← drop_length_takeWhile p l]
        exact hcur.advance (hle.trans hpart) hle
      · have hlong : (m.data.drop offset).length < l.length := by
          have hpos := List.length_pos_iff.2 hw
          rw [hl, List.length_append]
          omega
        have htake : (m.data.drop offset).take lineLen = m.data.drop offset := by
          exact List.take_of_length_le (by omega)
        have hsub := (List.takeWhile_prefix p (l := m.data.drop offset)).length_le
        rw [walkWhile, htake]
        split
        next hstop =>
          have htaken : l.takeWhile p = (m.data.drop offset).takeWhile p := by
            rw [hl, List.takeWhile_append, if_neg (by omega)]
          rw [← htaken]
          refine ⟨?_, rfl⟩
          rw [← drop_length_takeWhile p l]
          exact hcur.advance (by rw [htaken]; exact hsub) hle
        next hmore =>
          have hall : (m.data.drop offset).takeWhile p = m.data.drop offset :=
            (List.takeWhile_prefix p).eq_of_length (by omega)
          have hnext := hcur.next hlong.le
          rw [hl, List.drop_left] at hnext
          have hrest := ih ((m.data.drop offset).foldl step acc) hnext
          have hpos := List.takeWhile_eq_self_iff.1 hall
          rw [hall, hl, List.takeWhile_append_of_pos hpos, List.dropWhile_append_of_pos hpos,
            List.foldl_append]
          exact hrest

theorem prefix_iff_take_drop
    {val l : List UInt8} {k : Nat}
    (hval : k ≤ val.length)
    (hl : k ≤ l.length) :
    val <+: l ↔ val.take k = l.take k ∧ val.drop k <+: l.drop k := by
  constructor
  · rintro ⟨s, rfl⟩
    rw [List.take_append_of_le_length hval, List.drop_append_of_le_length hval]
    exact ⟨rfl, List.prefix_append _ _⟩
  · rintro ⟨htake, s, hs⟩
    refine ⟨s, ?_⟩
    calc val ++ s
        = val.take k ++ (val.drop k ++ s) := by
          rw [← List.append_assoc, List.take_append_drop]
      _ = l := by
          rw [htake, hs, List.take_append_drop]

/-- By induction on the chain; the comparison stops with the first mbuf that differs. -/
theorem consumeString_spec
    {val : List UInt8} {line : Chain} {offset lineLen : Nat} {l r : List UInt8}
    (hcur : Cursor.Holds ⟨line, offset, lineLen⟩ l r) :
    (val <+: l → ∃ cur, consumeString val line offset lineLen = some cur ∧
      cur.Holds (l.drop val.length) r) ∧
    (¬ val <+: l → consumeString val line offset lineLen = none) := by
  induction line generalizing val offset lineLen l with
  | nil =>
      obtain ⟨rfl, rfl⟩ := List.append_eq_nil_iff.1 hcur.bytes.symm
      refine ⟨fun hpre => ?_, fun hpre => ?_⟩
      · obtain rfl := List.prefix_nil.1 hpre
        exact ⟨_, if_pos rfl, rfl, hcur.len⟩
      · exact if_neg (by rintro rfl; exact hpre List.nil_prefix)
  | cons m rest ih =>
      have hlen : lineLen = l.length := hcur.len
      obtain ⟨k, hk⟩ : ∃ k, min val.length (min (m.data.drop offset).length lineLen) = k :=
        ⟨_, rfl⟩
      have hsame : (m.data.drop offset).take k = l.take k := by
        rcases hcur.cases with ⟨u, hu⟩ | ⟨w, -, hl⟩
        · rw [hu, List.take_append_of_le_length (by omega)]
        · conv_rhs => rw [hl, List.take_append_of_le_length (by omega)]
      rw [consumeString, hk, hsame, prefix_iff_take_drop (k := k) (by omega) (by omega)]
      by_cases htake : val.take k = l.take k
      · rw [if_neg (not_not.2 htake)]
        simp only [htake, true_and]
        rcases eq_or_ne (val.drop k) [] with hnil | hnil
        · -- all of the string was found
          have hval := List.drop_eq_nil_iff.1 hnil
          obtain rfl : k = val.length := by omega
          rw [if_pos hnil, hnil]
          exact ⟨fun _ => ⟨_, rfl, hcur.advance (by omega) (by omega)⟩,
            fun h => absurd List.nil_prefix h⟩
        · have hval : k < val.length := by
            rw [← not_le]
            exact fun hle => hnil (List.drop_eq_nil_iff.2 hle)
          rw [if_neg hnil]
          by_cases hend : lineLen - k = 0
          · rw [if_pos hend, List.drop_eq_nil_iff.2 (show l.length ≤ k by omega)]
            exact ⟨fun h => absurd (List.prefix_nil.1 h) hnil, fun _ => rfl⟩
          · obtain rfl : k = (m.data.drop offset).length := by omega
            rw [if_neg hend]
            have hrest := @ih (val.drop (m.data.drop offset).length) _ _ _
              (hcur.next (by omega))
            rwa [List.drop_drop, List.length_drop (l := val), Nat.add_sub_of_le hval.le] at hrest
      · rw [if_pos htake]
        exact ⟨fun h => absurd h.1 htake, fun _ => rfl⟩

theorem httpConsumeString_spec
    {cur : Cursor} {l r : List UInt8}
    (hcur : cur.Holds l r)
    (val : List UInt8) :
    (val <+: l → ∃ cur', httpConsumeString val cur = some cur' ∧
      cur'.Holds (l.drop val.length) r) ∧
    (¬ val <+: l → httpConsumeString val cur = none) :=
  consumeString_spec hcur

theorem Cursor.Holds.lineLen_ne_zero
    {cur : Cursor} {l r : List UInt8}
    (hcur : cur.Holds l r) :
    cur.lineLen ≠ 0 ↔ l ≠ [] := by
  rw [hcur.len, ne_eq, List.length_eq_zero_iff]

theorem httpConsumeWs_spec
    {cur : Cursor} {l r : List UInt8}
    (hcur : cur.Holds l r) :
    (l.dropWhile isblank ≠ [] → ∃ cur', httpConsumeWs cur = some cur' ∧
      cur'.Holds (l.dropWhile isblank) r) ∧
    (l.dropWhile isblank = [] → httpConsumeWs cur = none) := by
  have hwalk := (walkWhile_spec isblank (fun _ _ => ()) () hcur).1
  refine ⟨fun hne => ⟨_, if_pos (hwalk.lineLen_ne_zero.2 hne), hwalk⟩, fun hnil => ?_⟩
  exact if_neg (fun h => hwalk.lineLen_ne_zero.1 h hnil)

/-- `http_parse_uint32` on the digits of a list. -/
def decimal (l : List UInt8) : Nat :=
  (l.takeWhile isdigit).foldl addDigit 0

theorem httpParseUint32_spec
    {cur : Cursor} {l r : List UInt8}
    (hcur : cur.Holds l r) :
    (l.dropWhile isdigit ≠ [] → ∃ cur', httpParseUint32 cur = some (cur', decimal l) ∧
      cur'.Holds (l.dropWhile isdigit) r) ∧
    (l.dropWhile isdigit = [] → httpParseUint32 cur = none) := by
  obtain ⟨hwalk, hvalue⟩ := walkWhile_spec isdigit addDigit 0 hcur
  refine ⟨fun hne => ⟨_, ?_, hwalk⟩, fun hnil => ?_⟩
  · rw [httpParseUint32, if_pos (hwalk.lineLen_ne_zero.2 hne), decimal, ← hvalue]
  · exact if_neg (fun h => hwalk.lineLen_ne_zero.1 h hnil)

/-- What follows the name of a field and the blanks after it. -/
def fieldValue (name l : List UInt8) : List UInt8 :=
  (l.drop name.length).dropWhile isblank

/-- The fields the application looks for. -/
inductive HdrField
  | contentLength (value : Option Nat)
  | transferEncoding
  | other
deriving DecidableEq, Repr

/-- The field that a line holds; a length must be followed by the line end to be taken. -/
def hdrField (l : List UInt8) : HdrField :=
  let number := fieldValue httpContentLenStr l
  if httpContentLenStr <+: l ∧ number.dropWhile isdigit ≠ [] then
    .contentLength (if (number.dropWhile isdigit).length = 2 then some (decimal number) else none)
  else if httpTransferEncStr <+: l ∧ fieldValue httpTransferEncStr l ≠ [] then
    .transferEncoding
  else
    .other

/-- The content length after a line. -/
def lengthAfter (contentLength : Nat) : HdrField → Nat
  | .contentLength (some value) => value
  | _ => contentLength

theorem hdrField_of_length
    {l : List UInt8}
    (hname : httpContentLenStr <+: l)
    (hnumber : (fieldValue httpContentLenStr l).dropWhile isdigit ≠ []) :
    hdrField l =
      .contentLength (if ((fieldValue httpContentLenStr l).dropWhile isdigit).length = 2 then
        some (decimal (fieldValue httpContentLenStr l)) else none) :=
  if_pos ⟨hname, hnumber⟩

theorem hdrField_of_not_length
    {l : List UInt8}
    (hno : ¬ (httpContentLenStr <+: l ∧
      (fieldValue httpContentLenStr l).dropWhile isdigit ≠ [])) :
    hdrField l =
      if httpTransferEncStr <+: l ∧ fieldValue httpTransferEncStr l ≠ [] then .transferEncoding
      else .other :=
  if_neg hno

/-- The three steps of the function fail one after the other. -/
theorem httpParseContentLength_spec
    (app : HttpApp)
    {cur : Cursor} {l r : List UInt8}
    (hcur : cur.Holds l r) :
    (httpContentLenStr <+: l ∧ (fieldValue httpContentLenStr l).dropWhile isdigit ≠ [] →
      httpParseContentLength app cur =
        some { app with haContentLength := lengthAfter app.haContentLength (hdrField l) }) ∧
    (¬ (httpContentLenStr <+: l ∧ (fieldValue httpContentLenStr l).dropWhile isdigit ≠ []) →
      httpParseContentLength app cur = none) := by
  by_cases hname : httpContentLenStr <+: l
  · obtain ⟨named, hnamed, hheld⟩ := (httpConsumeString_spec hcur _).1 hname
    by_cases hvalue : fieldValue httpContentLenStr l = []
    · have hws := (httpConsumeWs_spec hheld).2 hvalue
      refine ⟨fun h => absurd (by rw [hvalue]; rfl) h.2, fun _ => ?_⟩
      simp [httpParseContentLength, hnamed, hws]
    · obtain ⟨valued, hws, hheld⟩ := (httpConsumeWs_spec hheld).1 hvalue
      by_cases hnumber : (fieldValue httpContentLenStr l).dropWhile isdigit = []
      · have hparse := (httpParseUint32_spec hheld).2 hnumber
        refine ⟨fun h => absurd hnumber h.2, fun _ => ?_⟩
        simp [httpParseContentLength, hnamed, hws, hparse]
      · obtain ⟨last, hparse, hheld⟩ := (httpParseUint32_spec hheld).1 hnumber
        refine ⟨fun _ => ?_, fun h => absurd ⟨hname, hnumber⟩ h⟩
        have hlen : last.lineLen =
            ((fieldValue httpContentLenStr l).dropWhile isdigit).length := hheld.len
        rw [hdrField_of_length hname hnumber, ← hlen]
        by_cases htwo : last.lineLen = 2
        · simp [httpParseContentLength, hnamed, hws, hparse, htwo, lengthAfter, fieldValue]
        · simp [httpParseContentLength, hnamed, hws, hparse, htwo, lengthAfter]
  · have hnamed := (httpConsumeString_spec hcur _).2 hname
    refine ⟨fun h => absurd h.1 hname, fun _ => ?_⟩
    simp [httpParseContentLength, hnamed]

theorem httpParseTransferEnc_spec
    {cur : Cursor} {l r : List UInt8}
    (hcur : cur.Holds l r) :
    httpParseTransferEnc cur = true ↔
      httpTransferEncStr <+: l ∧ fieldValue httpTransferEncStr l ≠ [] := by
  by_cases hname : httpTransferEncStr <+: l
  · obtain ⟨named, hnamed, hheld⟩ := (httpConsumeString_spec hcur _).1 hname
    by_cases hvalue : fieldValue httpTransferEncStr l = []
    · have hws := (httpConsumeWs_spec hheld).2 hvalue
      simp [httpParseTransferEnc, hnamed, hws, hvalue]
    · obtain ⟨valued, hws, -⟩ := (httpConsumeWs_spec hheld).1 hvalue
      simp [httpParseTransferEnc, hnamed, hws, hname, hvalue]
  · have hnamed := (httpConsumeString_spec hcur _).2 hname
    simp [httpParseTransferEnc, hnamed, hname]

/-- What a line does is a function of its bytes. -/
theorem httpParseHdrLine_eq
    (app : HttpApp) (stats : HttpStats)
    {data : Chain} {bytes l r : List UInt8} {offset : Nat}
    (hdata : Lays data bytes)
    (hline : bytes.drop offset = l ++ r) :
    httpParseHdrLine app stats data offset l.length =
      if hdrField l = .transferEncoding then
        (app, { stats with hstsTransferEncCnt := stats.hstsTransferEncCnt + 1 }, true)
      else
        ({ app with haContentLength := lengthAfter app.haContentLength (hdrField l) }, stats,
          false) := by
  have hcur : Cursor.Holds ⟨(appDataGetFromOffset data offset).1,
      (appDataGetFromOffset data offset).2, l.length⟩ l r :=
    ⟨by rw [chainFrom_appDataGetFromOffset hdata, hline], rfl⟩
  rw [httpParseHdrLine]
  by_cases hlength : httpContentLenStr <+: l ∧
      (fieldValue httpContentLenStr l).dropWhile isdigit ≠ []
  · have hfield := hdrField_of_length hlength.1 hlength.2
    simp only [(httpParseContentLength_spec app hcur).1 hlength]
    rw [if_neg (by rw [hfield]; exact HdrField.noConfusion)]
  · simp only [(httpParseContentLength_spec app hcur).2 hlength,
      httpParseTransferEnc_spec hcur]
    rw [hdrField_of_not_length hlength]
    by_cases henc : httpTransferEncStr <+: l ∧ fieldValue httpTransferEncStr l ≠ []
    · rw [if_pos henc, if_pos henc, if_pos rfl]
    · rw [if_neg henc, if_neg henc, if_neg (by simp)]
      rfl

end Lines

/-! ## Finding line ends -/

section Scanning

/-- A line with its end. -/
def IsLine (l : List UInt8) : Prop :=
  ∃ t, l = t ++ [cr, lf] ∧ Undelimited cr lf (t ++ [cr])

/-- The beginning of a line that was scanned without finding its end. -/
structure Scanned (app : HttpApp) (held : List UInt8) : Prop where
  undelimited : Undelimited cr lf held
  scanOffset : app.haPtr.scanOffset = resumeAt cr held

theorem zero_ne_cr :
    (0 : UInt8) ≠ cr := by
  decide

theorem scanned_nil
    {app : HttpApp}
    (hscan : app.haPtr.scanOffset = 0) :
    Scanned app [] :=
  ⟨undelimited_nil, hscan⟩

/-- The layout of the chain does not matter, by induction on it. -/
theorem scanMbufs_eq
    (c : Chain) (offset lineLen : Nat) (lastChar : UInt8) :
    scanMbufs c offset lineLen lastChar =
      match scan cr lf lastChar 0 (chainFrom c offset) with
      | .found i => .ended (lineLen + i + 1)
      | .more last => .pending (lineLen + (chainFrom c offset).length) last := by
  induction c generalizing offset lineLen lastChar with
  | nil =>
      rfl
  | cons m rest ih =>
      rw [scanMbufs, chainFrom, scan_append]
      cases scan cr lf lastChar 0 (m.data.drop offset) with
      | found i =>
          rfl
      | more c =>
          simp only
          rw [ih, chainFrom_zero, Nat.zero_add, ← Nat.add_zero (m.data.drop offset).length,
            scan_shift]
          cases scan cr lf c 0 (chainBytes rest) with
          | found i =>
              simp only [List.length_drop, Nat.add_assoc]
          | more last =>
              simp only [List.length_drop, List.length_append, Nat.add_assoc]

/-- Where the resumed scan begins. -/
theorem scanMbufs_resumed
    {app : HttpApp} {data : Chain} {bytes : List UInt8} {offset : Nat}
    (hdata : Lays data bytes)
    (hle : offset + app.haPtr.scanOffset ≤ bytes.length) :
    chainFrom
        (appDataGetFromOffset data ((offset + app.haPtr.scanOffset) % 2 ^ 32)).1
        (appDataGetFromOffset data ((offset + app.haPtr.scanOffset) % 2 ^ 32)).2 =
      (bytes.drop offset).drop app.haPtr.scanOffset := by
  rw [Nat.mod_eq_of_lt (lt_of_le_of_lt hle hdata.lt), chainFrom_appDataGetFromOffset hdata,
    List.drop_drop]

theorem httpScanLine_line
    {app : HttpApp} {data : Chain} {bytes held l r : List UInt8} {offset : Nat}
    (hdata : Lays data bytes)
    (hscan : Scanned app held)
    (hheld : held <+: bytes.drop offset)
    (hl : IsLine l)
    (hline : bytes.drop offset = l ++ r) :
    httpScanLine app data offset = ({ app with haPtr := .recv 0 }, l.length) := by
  obtain ⟨t, rfl, ht⟩ := hl
  obtain ⟨p, hp⟩ := hheld
  have hcut : held ++ p = t ++ cr :: lf :: r := by
    rw [hp, hline, List.append_assoc]
    rfl
  have hresume := resumeAt_le_line hscan.undelimited hcut
  have hlength := congrArg List.length hline
  simp only [List.length_drop, List.length_append, List.length_cons, List.length_nil] at hlength
  have hfound := scan_resume_found zero_ne_cr hscan.undelimited hcut ht
  rw [httpScanLine, scanMbufs_eq,
    scanMbufs_resumed hdata (by rw [hscan.scanOffset]; omega), hscan.scanOffset, ← hp, hfound]
  simp only [Prod.mk.injEq, List.length_append, List.length_cons, List.length_nil, true_and]
  omega

theorem httpScanLine_more
    {app : HttpApp} {data : Chain} {bytes held : List UInt8} {offset : Nat}
    (hdata : Lays data bytes)
    (hscan : Scanned app held)
    (hheld : held <+: bytes.drop offset)
    (hoffset : offset ≤ bytes.length)
    (hno : Undelimited cr lf (bytes.drop offset)) :
    httpScanLine app data offset =
      ({ app with haPtr := .recv (resumeAt cr (bytes.drop offset)) }, 0) := by
  obtain ⟨p, hp⟩ := hheld
  have hresume := resumeAt_le (a := cr) held
  have hlength := congrArg List.length hp
  rw [List.length_append, List.length_drop] at hlength
  rw [← hp] at hno
  obtain ⟨last, hmore, hkeep⟩ := scan_resume_more zero_ne_cr hno
  rw [httpScanLine, scanMbufs_eq,
    scanMbufs_resumed hdata (by rw [hscan.scanOffset]; omega), hscan.scanOffset, ← hp, hmore]
  simp only [Prod.mk.injEq, and_true]
  rw [← hkeep, List.length_drop, Nat.add_sub_of_le (by rw [List.length_append]; omega)]

end Scanning

/-! ## The header -/

section Header

/-- A header that the application accepts: the content length before it, its bytes, and after. -/
inductive HeaderOf : Nat → List UInt8 → Nat → Prop
  | done (contentLength : Nat) :
      HeaderOf contentLength [cr, lf] contentLength
  | line {before after : Nat} {l h : List UInt8} (hl : IsLine l) (hlong : 2 < l.length)
      (henc : hdrField l ≠ .transferEncoding)
      (hrest : HeaderOf (lengthAfter before (hdrField l)) h after) :
      HeaderOf before (l ++ h) after

theorem isLine_crlf :
    IsLine [cr, lf] :=
  ⟨[], rfl, by decide⟩

theorem HeaderOf.length_pos
    {before after : Nat} {h : List UInt8}
    (hh : HeaderOf before h after) :
    0 < h.length := by
  induction hh with
  | done contentLength =>
      decide
  | line hl hlong henc hrest ih =>
      rw [List.length_append]
      omega

theorem IsLine.two_le
    {l : List UInt8}
    (hl : IsLine l) :
    2 ≤ l.length := by
  obtain ⟨t, rfl, -⟩ := hl
  simp

/-- A line that has not ended holds no line end. -/
theorem IsLine.undelimited_prefix
    {l b m : List UInt8}
    (hl : IsLine l)
    (hb : l = b ++ m)
    (hm : m ≠ []) :
    Undelimited cr lf b := by
  obtain ⟨t, rfl, ht⟩ := hl
  have hlength := congrArg List.length hb
  have hpos := List.length_pos_iff.2 hm
  simp only [List.length_append, List.length_cons, List.length_nil] at hlength
  refine ht.of_infix (List.IsPrefix.isInfix ?_)
  have hpre : t ++ [cr] <+: t ++ [cr, lf] := ⟨[lf], by simp⟩
  refine List.prefix_of_prefix_length_le ⟨m, hb.symm⟩ hpre ?_
  simp only [List.length_append, List.length_cons, List.length_nil]
  omega

variable {app : HttpApp} {data : Chain} {bytes held : List UInt8} {offset : Nat}

/-- Without a line end in the rest of the chain the loop stops where it is. -/
theorem httpParseHdrLoop_pending
    (stats : HttpStats) (delivered : Nat)
    (hdata : Lays data bytes)
    (hscan : Scanned app held)
    (hheld : held <+: bytes.drop offset)
    (hoffset : offset ≤ bytes.length)
    (hno : Undelimited cr lf (bytes.drop offset)) :
    ∃ ptr, httpParseHdrLoop data app stats offset delivered =
        ⟨{ app with haPtr := ptr }, stats, delivered, false, false⟩ ∧
      Scanned { app with haPtr := ptr } (bytes.drop offset) := by
  rw [httpParseHdrLoop, hdata.pktLen]
  rcases hoffset.lt_or_eq with hlt | rfl
  · rw [if_pos hlt, httpScanLine_more hdata hscan hheld hoffset hno]
    exact ⟨_, rfl, hno, rfl⟩
  · rw [if_neg (lt_irrefl _)]
    refine ⟨app.haPtr, rfl, hno, ?_⟩
    rw [List.drop_length] at hheld ⊢
    rw [List.prefix_nil.1 hheld] at hscan
    exact hscan.scanOffset

/-- One turn of the loop with a complete line. -/
theorem httpParseHdrLoop_line
    (stats : HttpStats) (delivered : Nat)
    {l r : List UInt8}
    (hdata : Lays data bytes)
    (hscan : Scanned app held)
    (hheld : held <+: bytes.drop offset)
    (hl : IsLine l)
    (hline : bytes.drop offset = l ++ r) :
    httpParseHdrLoop data app stats offset delivered =
      if l.length = 2 then ⟨{ app with haPtr := .recv 0 }, stats, delivered + 2, false, true⟩
      else
        match httpParseHdrLine { app with haPtr := .recv 0 } stats data offset l.length with
        | (app, stats, true) => ⟨app, stats, delivered + l.length, true, false⟩
        | (app, stats, false) =>
            httpParseHdrLoop data app stats (offset + l.length) (delivered + l.length) := by
  have hlength := congrArg List.length hline
  have hpos := hl.two_le
  rw [List.length_drop, List.length_append] at hlength
  rw [httpParseHdrLoop, hdata.pktLen, if_pos (by omega),
    httpScanLine_line hdata hscan hheld hl hline]
  simp only
  rw [if_neg (by omega)]
  split
  next htwo => rw [htwo]
  next => rfl

/-- A line that is not the last and is accepted only sets the content length. -/
theorem httpParseHdrLoop_field
    (stats : HttpStats) (delivered : Nat)
    {l r : List UInt8}
    (hdata : Lays data bytes)
    (hscan : Scanned app held)
    (hheld : held <+: bytes.drop offset)
    (hl : IsLine l)
    (hlong : 2 < l.length)
    (henc : hdrField l ≠ .transferEncoding)
    (hline : bytes.drop offset = l ++ r) :
    httpParseHdrLoop data app stats offset delivered =
      httpParseHdrLoop data
        { app with
          haPtr := .recv 0
          haContentLength := lengthAfter app.haContentLength (hdrField l) }
        stats (offset + l.length) (delivered + l.length) := by
  rw [httpParseHdrLoop_line stats delivered hdata hscan hheld hl hline, if_neg (by omega),
    httpParseHdrLine_eq _ stats hdata hline, if_neg henc]

/-- A whole header, by induction on its lines. -/
theorem httpParseHdrLoop_complete
    (stats : HttpStats) (delivered : Nat)
    {before after : Nat} {h r : List UInt8}
    (hh : HeaderOf before h after)
    (hdata : Lays data bytes)
    (hscan : Scanned app held)
    (hheld : held <+: bytes.drop offset)
    (hbefore : app.haContentLength = before)
    (hbytes : bytes.drop offset = h ++ r) :
    httpParseHdrLoop data app stats offset delivered =
      ⟨{ app with
         haPtr := .recv 0
         haContentLength := after }, stats, delivered + h.length, false, true⟩ := by
  induction hh generalizing app held offset delivered with
  | done contentLength =>
      have htwo : [cr, lf].length = 2 := by
        rfl
      rw [httpParseHdrLoop_line stats delivered hdata hscan hheld isLine_crlf hbytes, htwo,
        if_pos rfl, ← hbefore]
  | @line before after l h hl hlong henc hrest ih =>
      rw [List.append_assoc] at hbytes
      have hdrop : bytes.drop (offset + l.length) = h ++ r := by
        rw [← List.drop_drop, hbytes, List.drop_left]
      rw [httpParseHdrLoop_field stats delivered hdata hscan hheld hl hlong henc hbytes,
        ih _ (scanned_nil rfl) List.nil_prefix (by rw [hbefore]) hdrop, List.length_append,
        Nat.add_assoc]

/-- A part of a header, by induction on its lines: what is left continues it. -/
theorem httpParseHdrLoop_incomplete
    (stats : HttpStats) (delivered : Nat)
    {before after : Nat} {h m : List UInt8}
    (hh : HeaderOf before h after)
    (hdata : Lays data bytes)
    (hscan : Scanned app held)
    (hheld : held <+: bytes.drop offset)
    (hoffset : offset ≤ bytes.length)
    (hbefore : app.haContentLength = before)
    (hbytes : h = bytes.drop offset ++ m)
    (hm : m ≠ []) :
    ∃ d ptr len,
      httpParseHdrLoop data app stats offset delivered =
        ⟨{ app with
           haPtr := ptr
           haContentLength := len }, stats, delivered + d, false, false⟩ ∧
      Scanned { app with
        haPtr := ptr
        haContentLength := len } (bytes.drop (offset + d)) ∧
      HeaderOf len (bytes.drop (offset + d) ++ m) after ∧
      offset + d ≤ bytes.length := by
  induction hh generalizing app held offset delivered with
  | done contentLength =>
      have hno := isLine_crlf.undelimited_prefix hbytes hm
      obtain ⟨ptr, hloop, hkept⟩ :=
        httpParseHdrLoop_pending stats delivered hdata hscan hheld hoffset hno
      refine ⟨0, ptr, app.haContentLength, hloop, hkept, ?_, hoffset⟩
      rw [Nat.add_zero, ← hbytes, hbefore]
      exact HeaderOf.done _
  | @line before after l h hl hlong henc hrest ih =>
      by_cases hends : ∃ u, bytes.drop offset = l ++ u ∧ h = u ++ m
      · obtain ⟨u, hline, hu⟩ := hends
        have hlength := congrArg List.length hline
        rw [List.length_drop, List.length_append] at hlength
        have hpos := hl.two_le
        have hdrop : bytes.drop (offset + l.length) = u := by
          rw [← List.drop_drop, hline, List.drop_left]
        obtain ⟨d, ptr, len, hloop, hkept, hleft, hd⟩ :=
          @ih { app with
              haPtr := .recv 0
              haContentLength := lengthAfter app.haContentLength (hdrField l) }
            [] (offset + l.length) (delivered + l.length) (scanned_nil rfl) List.nil_prefix
            (by omega) (by rw [hbefore]) (by rw [hdrop, hu])
        refine ⟨l.length + d, ptr, len, ?_, ?_, ?_, by omega⟩
        · rw [httpParseHdrLoop_field stats delivered hdata hscan hheld hl hlong henc hline, hloop,
            Nat.add_assoc]
        · rw [← Nat.add_assoc]
          exact hkept
        · rw [← Nat.add_assoc]
          exact hleft
      · -- the first line has not ended yet
        obtain ⟨u, hl', hm'⟩ : ∃ u, l = bytes.drop offset ++ u ∧ m = u ++ h := by
          rcases List.append_eq_append_iff.1 hbytes with h₁ | h₁
          · exact absurd h₁ hends
          · exact h₁
        have hu : u ≠ [] := by
          rintro rfl
          exact hends ⟨[], by rw [List.append_nil, hl', List.append_nil],
            by rw [hm', List.nil_append, List.nil_append]⟩
        obtain ⟨ptr, hloop, hkept⟩ := httpParseHdrLoop_pending stats delivered hdata hscan hheld
          hoffset (hl.undelimited_prefix hl' hu)
        refine ⟨0, ptr, app.haContentLength, hloop, hkept, ?_, hoffset⟩
        rw [Nat.add_zero, ← hbytes, hbefore]
        exact HeaderOf.line hl hlong henc hrest

end Header

end HttpParser
end Warp17
