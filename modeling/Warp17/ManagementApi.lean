import Mathlib.Data.Fintype.BigOperators
import Mathlib.Data.Fintype.Pi
import Warp17.GuardedRuns
import Warp17.ImixGroups

/-!
# The management interface of a port

The calls of src/src/tpg_test_mgmt_api.c that change the configuration of the test cases of a
port: adding, deleting and updating a test case, replacing its application and setting its
socket options.  The two calls on IMIX groups are here too, since the groups take part in the
validation of a test case.  A call answers with an error code or with nothing, and leaves a new
state; everything of the other ports stays as it is.  A call that goes down through the groups need
not return.

A call is well behaved (`CallOk`) when it returns, an error leaves the environment of the port as
it was, nothing changes while tests run, every configured test case is still acceptable to
`test_mgmt_validate_test_case` and the count of test cases is right.

**Results**
- `added_cases`, `deleted_cases`, …: what each call can do.
- `Change.bookkeeping`: a configured test case sits at its own index, and holds its IMIX groups.
- `callOk_iff_callMeets`: for one call, when it is well behaved.
- `managementCalls_ok`: for whole sequences of calls.
-/

namespace Warp17
namespace ManagementApi

open BoundedCalls GuardedRuns ImixGroups TestCaseConfig

inductive Errno
  | einval
  | ealready
  | eexist
  | enoent
  | ebusy
deriving DecidableEq, Repr

/-- What a call returns: nothing for 0, or the error. -/
abbrev Reply := Option Errno

/-! ## Socket options -/

structure EthSockopt where
  ethsoTxOffloadIpv4Cksum : Bool
  ethsoTxOffloadTcpCksum : Bool
  ethsoTxOffloadUdpCksum : Bool
deriving DecidableEq, Repr

structure VlanSockopt where
  vlansoId : Nat
  vlansoPri : Nat
  vlansoHdrOptLen : Nat
deriving DecidableEq, Repr

/-- `tpg_vlan_sockopt_t`, the message. -/
structure VlanSockoptMsg where
  vlansoId : Opt Nat
  vlansoPri : Opt Nat
deriving DecidableEq, Repr

/-- `tpg_ipv4_sockopt_t`, the message. -/
structure Ipv4SockoptMsg where
  ip4soRxTstamp : Opt Bool
  ip4soTxTstamp : Opt Bool
  ip4soTos : Opt Nat
deriving DecidableEq, Repr

structure TcpSockopt where
  tcpoWinSize : Nat
  tcpoSynRetryCnt : Nat
  tcpoSynAckRetryCnt : Nat
  tcpoDataRetryCnt : Nat
  tcpoRetryCnt : Nat
  tcpoRto : Nat
  tcpoFinTo : Nat
  tcpoTwaitTo : Nat
  tcpoOrphanTo : Nat
  tcpoSkipTimewait : Bool
  tcpoAckDelay : Bool
deriving DecidableEq, Repr

/-- `tpg_tcp_sockopt_t`, the message. -/
structure TcpSockoptMsg where
  toWinSize : Opt Nat
  toSynRetryCnt : Opt Nat
  toSynAckRetryCnt : Opt Nat
  toDataRetryCnt : Opt Nat
  toRetryCnt : Opt Nat
  toRto : Opt Nat
  toFinTo : Opt Nat
  toTwaitTo : Opt Nat
  toOrphanTo : Opt Nat
  toSkipTimewait : Opt Bool
  toAckDelay : Opt Bool
deriving DecidableEq, Repr

/-- `sockopt_t`. -/
structure Sockopt where
  soEth : EthSockopt
  soVlan : VlanSockopt
  soIpv4 : Ipv4Sockopt
  soTcp : TcpSockopt
deriving DecidableEq, Repr

def vlanMin : Nat := 1

def vlanMax : Nat := 4094

def vlanStoreSockopt (options : VlanSockoptMsg) : VlanSockopt where
  vlansoId := options.vlansoId.val % 2 ^ 16
  vlansoPri := options.vlansoPri.val % 2 ^ 8
  vlansoHdrOptLen := if options.vlansoId.val % 2 ^ 16 ≠ 0 then 4 else 0

def vlanLoadSockopt (options : VlanSockopt) : VlanSockoptMsg where
  vlansoId := setField options.vlansoId
  vlansoPri := setField options.vlansoPri

/-- The length of the header options is set with the timestamps, and never taken back. -/
def ipv4StoreSockopt (dest : Ipv4Sockopt) (options : Ipv4SockoptMsg) : Ipv4Sockopt where
  ip4soRxTstamp := options.ip4soRxTstamp.val
  ip4soTxTstamp := options.ip4soTxTstamp.val
  ip4soTos := options.ip4soTos.val % 2 ^ 8
  ip4soHdrOptLen := if options.ip4soTxTstamp.val then 12 else dest.ip4soHdrOptLen

def ipv4LoadSockopt (options : Ipv4Sockopt) : Ipv4SockoptMsg where
  ip4soRxTstamp := setField options.ip4soRxTstamp
  ip4soTxTstamp := setField options.ip4soTxTstamp
  ip4soTos := setField options.ip4soTos

def tcpStoreSockopt (options : TcpSockoptMsg) : TcpSockopt where
  tcpoWinSize := options.toWinSize.val
  tcpoSynRetryCnt := options.toSynRetryCnt.val % 2 ^ 8
  tcpoSynAckRetryCnt := options.toSynAckRetryCnt.val % 2 ^ 8
  tcpoDataRetryCnt := options.toDataRetryCnt.val % 2 ^ 8
  tcpoRetryCnt := options.toRetryCnt.val % 2 ^ 8
  tcpoRto := options.toRto.val * 1000 % 2 ^ 32
  tcpoFinTo := options.toFinTo.val * 1000 % 2 ^ 32
  tcpoTwaitTo := options.toTwaitTo.val * 1000 % 2 ^ 32
  tcpoOrphanTo := options.toOrphanTo.val * 1000 % 2 ^ 32
  tcpoSkipTimewait := options.toSkipTimewait.val
  tcpoAckDelay := options.toAckDelay.val

def tcpLoadSockopt (options : TcpSockopt) : TcpSockoptMsg where
  toWinSize := setField options.tcpoWinSize
  toSynRetryCnt := setField options.tcpoSynRetryCnt
  toSynAckRetryCnt := setField options.tcpoSynAckRetryCnt
  toDataRetryCnt := setField options.tcpoDataRetryCnt
  toRetryCnt := setField options.tcpoRetryCnt
  toRto := setField (options.tcpoRto / 1000)
  toFinTo := setField (options.tcpoFinTo / 1000)
  toTwaitTo := setField (options.tcpoTwaitTo / 1000)
  toOrphanTo := setField (options.tcpoOrphanTo / 1000)
  toSkipTimewait := setField options.tcpoSkipTimewait
  toAckDelay := setField options.tcpoAckDelay

/-- `tpg_xlate_default_VlanSockopt`. -/
def defaultVlanSockopt : VlanSockoptMsg where
  vlansoId := setField 0
  vlansoPri := setField 0

/-- `tpg_xlate_default_Ipv4Sockopt`. -/
def defaultIpv4Sockopt : Ipv4SockoptMsg where
  ip4soRxTstamp := setField false
  ip4soTxTstamp := setField false
  ip4soTos := setField 0

/-- `tpg_xlate_default_TcpSockopt`. -/
def defaultTcpSockopt : TcpSockoptMsg where
  toWinSize := setField 1024
  toSynRetryCnt := setField 24
  toSynAckRetryCnt := setField 24
  toDataRetryCnt := setField 128
  toRetryCnt := setField 12
  toRto := setField 50
  toFinTo := setField 100
  toTwaitTo := setField 500
  toOrphanTo := setField 100
  toSkipTimewait := setField false
  toAckDelay := setField false

/-- The options that `bzero` leaves for TCP when the test case does not use it. -/
def zeroTcpSockopt : TcpSockopt :=
  ⟨0, 0, 0, 0, 0, 0, 0, 0, 0, false, false⟩

def zeroIpv4Sockopt : Ipv4Sockopt :=
  ⟨false, false, 0, 0⟩

/-- The option is given and above its limit. -/
def Opt.above (o : Opt Nat) (limit : Nat) : Bool :=
  o.has && o.val > limit

def testMgmtValidateTcpSockopt (options : TcpSockoptMsg) : Bool :=
  if Opt.above options.toWinSize 65535 then false
  else if Opt.above options.toSynRetryCnt 128 then false
  else if Opt.above options.toSynAckRetryCnt 128 then false
  else if Opt.above options.toDataRetryCnt 128 then false
  else if Opt.above options.toRetryCnt 128 then false
  else if Opt.above options.toRto 10000 then false
  else if Opt.above options.toFinTo 1000 then false
  else if Opt.above options.toTwaitTo 10000 then false
  else if Opt.above options.toOrphanTo 2000 then false
  else true

def testMgmtValidateIpv4Sockopt (options : Ipv4SockoptMsg) : Bool :=
  !Opt.above options.ip4soTos 255

def testMgmtValidateVlanSockopt (options : VlanSockoptMsg) : Bool :=
  if options.vlansoId.has &&
      (options.vlansoId.val < vlanMin || options.vlansoId.val > vlanMax) then false
  else if options.vlansoPri.has then
    if !options.vlansoId.has then false
    else !decide (options.vlansoPri.val > 7)
  else true

/-! ## The environment of the port -/

/-- An element of `te_test_cases`. -/
structure TestEntry where
  cfg : TestCase
  teosConfigured : Bool
  sockopt : Sockopt
deriving DecidableEq

/-- `test_env_t`, as far as the calls use it. -/
structure TestEnv where
  teTestRunning : Bool
  teTestCasesCount : Nat
  teTestCases : Fin tpgTestMaxEntries → TestEntry
deriving DecidableEq

/-- The environment of the port, and what all ports share. -/
structure Mgmt where
  env : TestEnv
  imix : Imix

/-- What the calls on one port find around them and do not change. -/
structure Platform where
  devCount : Nat
  ethPort : Nat
  txOffloadCapa : Nat → EthSockopt
  otherSockopts : Nat → Nat → Option Ipv4Sockopt

/-- `TEST_CASE_TYPE__*`. -/
inductive TestCaseType
  | client
  | server
  | max
deriving DecidableEq, Repr

def TestCase.tcType (cfg : TestCase) : TestCaseType :=
  match cfg.side with
  | .client _ => .client
  | .server _ => .server
  | .max => .max

section Calls

variable (pf : Platform)

/-- `test_mgmt_validate_test_case_id`, with the index that a valid id is. -/
def testCaseIndex (testCaseId : Nat) : Option (Fin tpgTestMaxEntries) :=
  if h : testCaseId < tpgTestMaxEntries then some ⟨testCaseId, h⟩ else none

/-- The two checks that every call on a test case begins with. -/
def checkPortAndId (testCaseId : Nat)
    (rest : Fin tpgTestMaxEntries → Except Errno (Fin tpgTestMaxEntries)) :
    Except Errno (Fin tpgTestMaxEntries) :=
  if !testMgmtValidatePortId pf.devCount pf.ethPort then .error .einval
  else
    match testCaseIndex testCaseId with
    | none => .error .einval
    | some index => rest index

def testMgmtAddTestCaseCheck (env : TestEnv) (testCaseId : Nat) :
    Except Errno (Fin tpgTestMaxEntries) :=
  checkPortAndId pf testCaseId fun index =>
    if env.teTestRunning then .error .ealready
    else if (env.teTestCases index).teosConfigured then .error .eexist
    else .ok index

def testMgmtDelTestCaseCheck (env : TestEnv) (testCaseId : Nat) :
    Except Errno (Fin tpgTestMaxEntries) :=
  checkPortAndId pf testCaseId fun index =>
    if env.teTestRunning then .error .ealready
    else if !(env.teTestCases index).teosConfigured then .error .enoent
    else .ok index

/-- A `tcType` of `max` asks for no particular type. -/
def testMgmtUpdateTestCaseCheck (env : TestEnv) (testCaseId : Nat) (tcType : TestCaseType) :
    Except Errno (Fin tpgTestMaxEntries) :=
  checkPortAndId pf testCaseId fun index =>
    if env.teTestRunning then .error .ealready
    else if !(env.teTestCases index).teosConfigured then .error .enoent
    else if tcType ≠ .max ∧ TestCase.tcType (env.teTestCases index).cfg ≠ tcType then
      .error .einval
    else .ok index

/-- Asked for a test case of any type; one that is not configured is `EALREADY` here. -/
def testMgmtGetTestCaseCheck (env : TestEnv) (testCaseId : Nat) :
    Except Errno (Fin tpgTestMaxEntries) :=
  checkPortAndId pf testCaseId fun index =>
    if !(env.teTestCases index).teosConfigured then .error .ealready
    else .ok index

/-- `test_mgmt_get_ipv4_sockopt`, nothing being an error. -/
def testMgmtGetIpv4Sockopt (env : TestEnv) (ethPort testCaseId : Nat) : Option Ipv4Sockopt :=
  if ethPort = pf.ethPort then
    match testMgmtGetTestCaseCheck pf env testCaseId with
    | .error _ => none
    | .ok index => some (env.teTestCases index).sockopt.soIpv4
  else pf.otherSockopts ethPort testCaseId

/-- `test_mgmt_validate_test_case` in a state. -/
def validateTestCase (fuel : Nat) (s : Mgmt) (cfg : TestCase) : Called Bool :=
  testMgmtValidateTestCase (testMgmtGetIpv4Sockopt pf s.env) pf.devCount fuel s.imix cfg

/-- It returns, and accepts the test case. -/
def validates (s : Mgmt) (cfg : TestCase) : Prop :=
  ∃ fuel, validateTestCase pf fuel s cfg = .ok true

/-- Whether the test case runs over TCP, for a side that has an L4 protocol. -/
def l4IsNotTcp (cfg : TestCase) : Bool :=
  match cfg.side with
  | .server server => server.srvL4.l4sProto ≠ .tcp
  | .client client => client.clL4.l4cProto ≠ .tcp
  | .max => false

/-- `test_init_server_sockopt_defaults` and `test_init_client_sockopt_defaults`. -/
def testInitTcpSockoptDefaults (cfg : TestCase) : TcpSockopt :=
  match cfg.side with
  | .server server =>
      if server.srvL4.l4sProto = .tcp then tcpStoreSockopt defaultTcpSockopt
      else zeroTcpSockopt
  | .client client =>
      if client.clL4.l4cProto = .tcp then tcpStoreSockopt defaultTcpSockopt
      else zeroTcpSockopt
  | .max => zeroTcpSockopt

def testInitSockoptDefaults (cfg : TestCase) : Sockopt where
  soEth := pf.txOffloadCapa cfg.tcEthPort
  soVlan := vlanStoreSockopt defaultVlanSockopt
  soIpv4 := ipv4StoreSockopt zeroIpv4Sockopt defaultIpv4Sockopt
  soTcp := testInitTcpSockoptDefaults cfg

def testMgmtAppAddTestCase (fuel : Nat) (imix : Imix) (cfg : TestCase) : Called Imix :=
  addCfg cfg fuel imix cfg.tcApp

def testMgmtAppDelTestCase (fuel : Nat) (imix : Imix) (cfg : TestCase) : Called Imix :=
  deleteCfg fuel imix cfg.tcApp

def TestEnv.setEntry (env : TestEnv) (index : Fin tpgTestMaxEntries) (entry : TestEntry) :
    TestEnv :=
  { env with teTestCases := Function.update env.teTestCases index entry }

/-- The environment with a new test case. -/
def TestEnv.addEntry (env : TestEnv) (index : Fin tpgTestMaxEntries) (cfg : TestCase) : TestEnv :=
  { env.setEntry index ⟨cfg, true, testInitSockoptDefaults pf cfg⟩ with
    teTestCasesCount := env.teTestCasesCount + 1 }

/-- Only the bit is reset. -/
def TestEnv.delEntry (env : TestEnv) (index : Fin tpgTestMaxEntries) : TestEnv :=
  { env.setEntry index { env.teTestCases index with teosConfigured := false } with
    teTestCasesCount := env.teTestCasesCount - 1 }

def testMgmtAddTestCase (fuel : Nat) (s : Mgmt) : Option TestCase → Called (Mgmt × Reply)
  | none => .ok (s, some .einval)
  | some cfg =>
      match testMgmtAddTestCaseCheck pf s.env cfg.tcId with
      | .error err => .ok (s, some err)
      | .ok index => do
          if ← validateTestCase pf fuel s cfg then
            let imix ← testMgmtAppAddTestCase fuel s.imix cfg
            .ok (⟨s.env.addEntry pf index cfg, imix⟩, none)
          else .ok (s, some .einval)

def testMgmtDelTestCase (fuel : Nat) (s : Mgmt) (testCaseId : Nat) : Called (Mgmt × Reply) :=
  match testMgmtDelTestCaseCheck pf s.env testCaseId with
  | .error err => .ok (s, some err)
  | .ok index => do
      let imix ← testMgmtAppDelTestCase fuel s.imix (s.env.teTestCases index).cfg
      .ok (⟨s.env.delEntry index, imix⟩, none)

/-- `tpg_update_arg_t`. -/
structure UpdateArg where
  uaRateOpen : Option Rate
  uaRateClose : Option Rate
  uaRateSend : Option Rate
  uaInitDelay : Option Delay
  uaUptime : Option Delay
  uaDowntime : Option Delay
  uaCriteria : Option TestCriteria
  uaAsync : Option Bool
  uaLatency : Option TestCaseLatency
deriving DecidableEq, Repr

/-- The fields of an update that only a client test case has. -/
def UpdateArg.clientOnly (arg : UpdateArg) : Bool :=
  arg.uaRateOpen.isSome || arg.uaRateClose.isSome || arg.uaRateSend.isSome ||
    arg.uaInitDelay.isSome || arg.uaUptime.isSome || arg.uaDowntime.isSome

def updateRates (arg : UpdateArg) (rates : RateClient) : RateClient where
  rcOpenRate := arg.uaRateOpen.getD rates.rcOpenRate
  rcCloseRate := arg.uaRateClose.getD rates.rcCloseRate
  rcSendRate := arg.uaRateSend.getD rates.rcSendRate

def updateSide (arg : UpdateArg) : TestCaseSide → TestCaseSide
  | .client client => .client { client with clRates := updateRates arg client.clRates }
  | .server server => .server server
  | .max => .max

/-- The stores of `test_mgmt_update_test_case` before it comes to the latency. -/
def updateFields (arg : UpdateArg) (cfg : TestCase) : TestCase :=
  { cfg with
    side := updateSide arg cfg.side
    tcInitDelay := { cfg.tcInitDelay with val := arg.uaInitDelay.getD cfg.tcInitDelay.val }
    tcUptime := { cfg.tcUptime with val := arg.uaUptime.getD cfg.tcUptime.val }
    tcDowntime := { cfg.tcDowntime with val := arg.uaDowntime.getD cfg.tcDowntime.val }
    tcCriteria := arg.uaCriteria.getD cfg.tcCriteria
    tcAsync := arg.uaAsync.getD cfg.tcAsync }

def withLatency (cfg : TestCase) (latency : TestCaseLatency) : TestCase :=
  { cfg with hasTcLatency := true, tcLatency := latency }

/-- The samples that the update asks for are given and too many. -/
def latencyRefused (latency : TestCaseLatency) : Bool :=
  latency.tcsSamples.has && latency.tcsSamples.val > tpgTstampSamplesMaxBufsize

/-- `tmp_cfg` of an application update. -/
def withApp (cfg : TestCase) (appCfg : App) : TestCase :=
  { cfg with tcApp := appCfg }

def TestEnv.setCfg (env : TestEnv) (index : Fin tpgTestMaxEntries) (cfg : TestCase) : TestEnv :=
  env.setEntry index { env.teTestCases index with cfg := cfg }

def testMgmtUpdateTestCase (s : Mgmt) (testCaseId : Nat) : Option UpdateArg → Mgmt × Reply
  | none => (s, some .einval)
  | some arg =>
      match testMgmtUpdateTestCaseCheck pf s.env testCaseId
          (if arg.clientOnly then .client else .max) with
      | .error err => (s, some err)
      | .ok index =>
          let cfg := updateFields arg (s.env.teTestCases index).cfg
          match arg.uaLatency with
          | some latency =>
              -- The fields above are stored by now, whatever becomes of the latency.
              if latencyRefused latency then
                ({ s with env := s.env.setCfg index cfg }, some .einval)
              else
                ({ s with env := s.env.setCfg index (withLatency cfg latency) }, none)
          | none => ({ s with env := s.env.setCfg index cfg }, none)

def testMgmtUpdateTestCaseApp (fuel : Nat) (s : Mgmt) (testCaseId : Nat) :
    Option App → Called (Mgmt × Reply)
  | none => .ok (s, some .einval)
  | some appCfg =>
      match testMgmtUpdateTestCaseCheck pf s.env testCaseId .max with
      | .error err => .ok (s, some err)
      | .ok index => do
          let cfg := (s.env.teTestCases index).cfg
          let tmpCfg := withApp cfg appCfg
          if ← validateTestCase pf fuel s tmpCfg then
            let imix ← testMgmtAppDelTestCase fuel s.imix cfg
            let imix ← testMgmtAppAddTestCase fuel imix tmpCfg
            .ok (⟨s.env.setCfg index tmpCfg, imix⟩, none)
          else .ok (s, some .einval)

def TestEnv.setSockopt (env : TestEnv) (index : Fin tpgTestMaxEntries) (sockopt : Sockopt) :
    TestEnv :=
  env.setEntry index { env.teTestCases index with sockopt := sockopt }

def copyTcpSockopt (oldOpts opts : TcpSockoptMsg) : TcpSockoptMsg where
  toWinSize := copyField oldOpts.toWinSize opts.toWinSize
  toSynRetryCnt := copyField oldOpts.toSynRetryCnt opts.toSynRetryCnt
  toSynAckRetryCnt := copyField oldOpts.toSynAckRetryCnt opts.toSynAckRetryCnt
  toDataRetryCnt := copyField oldOpts.toDataRetryCnt opts.toDataRetryCnt
  toRetryCnt := copyField oldOpts.toRetryCnt opts.toRetryCnt
  toRto := copyField oldOpts.toRto opts.toRto
  toFinTo := copyField oldOpts.toFinTo opts.toFinTo
  toTwaitTo := copyField oldOpts.toTwaitTo opts.toTwaitTo
  toOrphanTo := copyField oldOpts.toOrphanTo opts.toOrphanTo
  toSkipTimewait := copyField oldOpts.toSkipTimewait opts.toSkipTimewait
  toAckDelay := copyField oldOpts.toAckDelay opts.toAckDelay

def testMgmtSetTcpSockopt (s : Mgmt) (testCaseId : Nat) : Option TcpSockoptMsg → Mgmt × Reply
  | none => (s, some .einval)
  | some opts =>
      match testMgmtUpdateTestCaseCheck pf s.env testCaseId .max with
      | .error err => (s, some err)
      | .ok index =>
          let entry := s.env.teTestCases index
          if l4IsNotTcp entry.cfg then (s, some .einval)
          else
            let newOpts := copyTcpSockopt (tcpLoadSockopt entry.sockopt.soTcp) opts
            if !testMgmtValidateTcpSockopt newOpts then (s, some .einval)
            else
              ({ s with
                  env := s.env.setSockopt index
                    { entry.sockopt with soTcp := tcpStoreSockopt newOpts } },
                none)

def copyIpv4Sockopt (oldOpts opts : Ipv4SockoptMsg) : Ipv4SockoptMsg where
  ip4soRxTstamp := copyField oldOpts.ip4soRxTstamp opts.ip4soRxTstamp
  ip4soTxTstamp := copyField oldOpts.ip4soTxTstamp opts.ip4soTxTstamp
  ip4soTos := copyField oldOpts.ip4soTos opts.ip4soTos

def testMgmtSetIpv4Sockopt (s : Mgmt) (testCaseId : Nat) :
    Option Ipv4SockoptMsg → Mgmt × Reply
  | none => (s, some .einval)
  | some opts =>
      match testMgmtUpdateTestCaseCheck pf s.env testCaseId .max with
      | .error err => (s, some err)
      | .ok index =>
          let sockopt := (s.env.teTestCases index).sockopt
          let newOpts := copyIpv4Sockopt (ipv4LoadSockopt sockopt.soIpv4) opts
          if !testMgmtValidateIpv4Sockopt newOpts then (s, some .einval)
          else
            ({ s with
                env := s.env.setSockopt index
                  { sockopt with soIpv4 := ipv4StoreSockopt sockopt.soIpv4 newOpts } },
              none)

def copyVlanSockopt (oldOpts opts : VlanSockoptMsg) : VlanSockoptMsg where
  vlansoId := copyField oldOpts.vlansoId opts.vlansoId
  vlansoPri := copyField oldOpts.vlansoPri opts.vlansoPri

def testMgmtSetVlanSockopt (s : Mgmt) (testCaseId : Nat) :
    Option VlanSockoptMsg → Mgmt × Reply
  | none => (s, some .einval)
  | some opts =>
      match testMgmtUpdateTestCaseCheck pf s.env testCaseId .max with
      | .error err => (s, some err)
      | .ok index =>
          let sockopt := (s.env.teTestCases index).sockopt
          let newOpts := copyVlanSockopt (vlanLoadSockopt sockopt.soVlan) opts
          if !testMgmtValidateVlanSockopt newOpts then (s, some .einval)
          else
            ({ s with
                env := s.env.setSockopt index
                  { sockopt with soVlan := vlanStoreSockopt newOpts } },
              none)

/-- `TPG_IMIX_MAX_APPS` -/
def tpgImixMaxApps : Nat := 16

/-- `TPG_IMIX_MAX_TOTAL_APP_WEIGHT` -/
def tpgImixMaxTotalAppWeight : Nat := 100

/-- The exact sum of the weights. -/
def groupWeight (apps : List ImixApp) : Nat :=
  (apps.map ImixApp.iaWeight).sum

/-- `test_mgmt_validate_imix_group`; `total_weight` has 32 bits. -/
def testMgmtValidateImixGroup (apps : List ImixApp) : Bool :=
  if apps.length = 0 then false
  else if apps.length > tpgImixMaxApps then false
  else if apps.any fun app => app.iaWeight = 0 then false
  else !decide (groupWeight apps % 2 ^ 32 > tpgImixMaxTotalAppWeight)

def Mgmt.setGroup (s : Mgmt) (imixId : Nat) (group : ImixGroup) : Mgmt :=
  { s with imix := { s.imix with groups := Function.update s.imix.groups imixId group } }

def testMgmtAddImixGroup (s : Mgmt) (imixId : Nat) : Option (List ImixApp) → Mgmt × Reply
  | none => (s, some .einval)
  | some apps =>
      if imixId ≥ tpgImixMaxGroups then (s, some .einval)
      else if (s.imix.groups imixId).tigConfigured then (s, some .eexist)
      else if !testMgmtValidateImixGroup apps then (s, some .einval)
      else
        (s.setGroup imixId
            { s.imix.groups imixId with tigApps := apps, tigConfigured := true }, none)

def testMgmtDelImixGroup (s : Mgmt) (imixId : Nat) : Mgmt × Reply :=
  if imixId ≥ tpgImixMaxGroups then (s, some .einval)
  else if !(s.imix.groups imixId).tigConfigured then (s, some .enoent)
  else if (s.imix.groups imixId).tigReferenced then (s, some .ebusy)
  else (s.setGroup imixId { s.imix.groups imixId with tigConfigured := false }, none)

end Calls

/-- A call of the management interface on the port, with its arguments (none for `NULL`). -/
inductive Call
  | addTestCase (cfg : Option TestCase)
  | delTestCase (testCaseId : Nat)
  | updateTestCase (testCaseId : Nat) (arg : Option UpdateArg)
  | updateTestCaseApp (testCaseId : Nat) (appCfg : Option App)
  | setTcpSockopt (testCaseId : Nat) (opts : Option TcpSockoptMsg)
  | setIpv4Sockopt (testCaseId : Nat) (opts : Option Ipv4SockoptMsg)
  | setVlanSockopt (testCaseId : Nat) (opts : Option VlanSockoptMsg)
  | addImixGroup (imixId : Nat) (apps : Option (List ImixApp))
  | delImixGroup (imixId : Nat)
deriving DecidableEq, Repr

/-- A call, or the test manager starting or stopping the tests of the port. -/
inductive Input
  | call (c : Call)
  | testsRunning (running : Bool)
deriving DecidableEq, Repr

def perform (pf : Platform) (fuel : Nat) (s : Mgmt) : Call → Called (Mgmt × Reply)
  | .addTestCase cfg => testMgmtAddTestCase pf fuel s cfg
  | .delTestCase testCaseId => testMgmtDelTestCase pf fuel s testCaseId
  | .updateTestCase testCaseId arg => .ok (testMgmtUpdateTestCase pf s testCaseId arg)
  | .updateTestCaseApp testCaseId appCfg =>
      testMgmtUpdateTestCaseApp pf fuel s testCaseId appCfg
  | .setTcpSockopt testCaseId opts => .ok (testMgmtSetTcpSockopt pf s testCaseId opts)
  | .setIpv4Sockopt testCaseId opts => .ok (testMgmtSetIpv4Sockopt pf s testCaseId opts)
  | .setVlanSockopt testCaseId opts => .ok (testMgmtSetVlanSockopt pf s testCaseId opts)
  | .addImixGroup imixId apps => .ok (testMgmtAddImixGroup s imixId apps)
  | .delImixGroup imixId => .ok (testMgmtDelImixGroup s imixId)

/-- The tests of the port are started or stopped. -/
def setRunning (s : Mgmt) (running : Bool) : Mgmt :=
  { s with env := { s.env with teTestRunning := running } }

/-- What an input makes of a state, if the call returns. -/
def step (pf : Platform) (s : Mgmt) : Input → Mgmt → Prop
  | .call c, s' => ∃ fuel reply, perform pf fuel s c = .ok (s', reply)
  | .testsRunning running, s' => s' = setRunning s running

/-! ## The invariants -/

/-- The number of configured test cases. -/
def configuredCount (env : TestEnv) : Nat :=
  (Finset.univ.filter fun index => (env.teTestCases index).teosConfigured = true).card

/-- A configured test case sits at its own index and holds the IMIX groups below it. -/
structure Bookkeeping (s : Mgmt) : Prop where
  ids : ∀ index : Fin tpgTestMaxEntries, (s.env.teTestCases index).teosConfigured = true →
    (s.env.teTestCases index).cfg.tcId = index.val
  held : ∀ index : Fin tpgTestMaxEntries, (s.env.teTestCases index).teosConfigured = true →
    Held (s.env.teTestCases index).cfg s.imix.groups (s.env.teTestCases index).cfg.tcApp

def configuredBit (entry : TestEntry) : Nat :=
  if entry.teosConfigured then 1 else 0

/-- The members of all groups, in a state. -/
def Mgmt.members (s : Mgmt) : Nat → List ImixApp :=
  ImixGroups.members s.imix.groups

/-- The application of the test case at `index`. -/
def Mgmt.app (s : Mgmt) (index : Fin tpgTestMaxEntries) : App :=
  (s.env.teTestCases index).cfg.tcApp

/-- The step from `s` to `s'` concerns the test case at `index` only. -/
structure Change (s s' : Mgmt) (index : Fin tpgTestMaxEntries) : Prop where
  others : ∀ j, j ≠ index → s'.env.teTestCases j = s.env.teTestCases j
  groups : ∀ j, j ≠ index → (s.env.teTestCases j).teosConfigured = true →
    ∀ imixId, Below s.members (s.app j) (.imix imixId) →
      s'.imix.groups imixId = s.imix.groups imixId
  count : s'.env.teTestCasesCount + configuredBit (s.env.teTestCases index) =
    s.env.teTestCasesCount + configuredBit (s'.env.teTestCases index)
  ownId : (s'.env.teTestCases index).teosConfigured = true →
    (s'.env.teTestCases index).cfg.tcId = index.val
  ownHeld : (s'.env.teTestCases index).teosConfigured = true →
    Held (s'.env.teTestCases index).cfg s'.imix.groups (s'.app index)

theorem configuredCount_add_bit
    {env env' : TestEnv} {index : Fin tpgTestMaxEntries}
    (hothers : ∀ j, j ≠ index → env'.teTestCases j = env.teTestCases j) :
    configuredCount env' + configuredBit (env.teTestCases index) =
      configuredCount env + configuredBit (env'.teTestCases index) := by
  have hsplit : ∀ e : TestEnv, configuredCount e =
      configuredBit (e.teTestCases index) +
        ∑ j ∈ Finset.univ.erase index, configuredBit (e.teTestCases j) := by
    intro e
    rw [Finset.add_sum_erase Finset.univ (fun j => configuredBit (e.teTestCases j))
      (Finset.mem_univ index), configuredCount, Finset.card_filter]
    rfl
  have hrest : ∑ j ∈ Finset.univ.erase index, configuredBit (env'.teTestCases j) =
      ∑ j ∈ Finset.univ.erase index, configuredBit (env.teTestCases j) := by
    refine Finset.sum_congr rfl fun j hj => ?_
    rw [hothers j (Finset.ne_of_mem_erase hj)]
  rw [hsplit env', hsplit env, hrest]
  omega

section Lookup

variable {pf : Platform}

theorem testCaseIndex_eq_some
    {testCaseId : Nat} {index : Fin tpgTestMaxEntries} :
    testCaseIndex testCaseId = some index ↔ index.val = testCaseId := by
  unfold testCaseIndex
  split_ifs with h
  · rw [Option.some_inj, Fin.ext_iff]
    exact eq_comm
  · refine iff_of_false nofun fun heq => ?_
    exact h (heq ▸ index.isLt)

end Lookup

theorem validates_iff
    {pf : Platform} {s : Mgmt} {cfg : TestCase} :
    validates pf s cfg ↔
      Acceptable (testMgmtGetIpv4Sockopt pf s.env) pf.devCount s.imix cfg :=
  acceptable_iff

section SameGroups

variable {pf : Platform} {s s' : Mgmt} {cfg : TestCase}

/-- Two states whose groups below an application are the same. -/
def SameBelow (s s' : Mgmt) (app : App) : Prop :=
  ∀ imixId, Below s.members app (.imix imixId) → s'.imix.groups imixId = s.imix.groups imixId

theorem SameBelow.of_eq
    {app : App}
    (heq : s'.imix.groups = s.imix.groups) :
    SameBelow s s' app :=
  fun _ _ => by rw [heq]

theorem SameBelow.members
    {app : App} {imixId : Nat}
    (h : SameBelow s s' app)
    (hbelow : Below s.members app (.imix imixId)) :
    s'.members imixId = s.members imixId := by
  rw [Mgmt.members, ImixGroups.members, h imixId hbelow]
  rfl

theorem SameBelow.held
    {app : App}
    (h : SameBelow s s' app)
    (hheld : Held cfg s.imix.groups app) :
    Held cfg s'.imix.groups app := by
  refine hheld.transfer fun imixId hbelow => ⟨h.members hbelow, ?_⟩
  rw [h imixId hbelow]
  exact hheld.group_below hbelow

end SameGroups

namespace Change

variable {pf : Platform} {s s' : Mgmt} {index : Fin tpgTestMaxEntries}

theorem bookkeeping
    (hchange : Change s s' index)
    (hbook : Bookkeeping s) :
    Bookkeeping s' := by
  constructor
  · intro j hconfigured
    by_cases hj : j = index
    · subst hj
      exact hchange.ownId hconfigured
    · rw [hchange.others j hj] at hconfigured ⊢
      exact hbook.ids j hconfigured
  · intro j hconfigured
    by_cases hj : j = index
    · subst hj
      exact hchange.ownHeld hconfigured
    · rw [hchange.others j hj] at hconfigured ⊢
      have hsame : SameBelow s s' (s.app j) := hchange.groups j hj hconfigured
      exact hsame.held (hbook.held j hconfigured)

end Change

/-- The call returns an error and does nothing. -/
def Refused (s : Mgmt) (result : Mgmt × Reply) : Prop :=
  result.1 = s ∧ result.2 ≠ none

theorem refused_error
    (s : Mgmt) (err : Errno) :
    Refused s (s, some err) :=
  ⟨rfl, nofun⟩

section Checks

variable {pf : Platform} {env : TestEnv} {testCaseId : Nat} {index : Fin tpgTestMaxEntries}

theorem checkPortAndId_ok
    {rest : Fin tpgTestMaxEntries → Except Errno (Fin tpgTestMaxEntries)}
    (hcheck : checkPortAndId pf testCaseId rest = .ok index) :
    pf.ethPort < pf.devCount ∧ ∃ i, i.val = testCaseId ∧ rest i = .ok index := by
  unfold checkPortAndId at hcheck
  split_ifs at hcheck with hport
  have hport' : pf.ethPort < pf.devCount := by
    simpa [testMgmtValidatePortId] using hport
  cases hindex : testCaseIndex testCaseId with
  | none =>
      simp [hindex] at hcheck
  | some i =>
      exact ⟨hport', i, testCaseIndex_eq_some.1 hindex, by simpa [hindex] using hcheck⟩

theorem addCheck_ok
    (hcheck : testMgmtAddTestCaseCheck pf env testCaseId = .ok index) :
    index.val = testCaseId ∧ env.teTestRunning = false ∧
      (env.teTestCases index).teosConfigured = false := by
  obtain ⟨-, i, hi, hrest⟩ := checkPortAndId_ok hcheck
  split_ifs at hrest with hrunning hconfigured
  cases hrest
  exact ⟨hi, by simpa using hrunning, by simpa using hconfigured⟩

theorem delCheck_ok
    (hcheck : testMgmtDelTestCaseCheck pf env testCaseId = .ok index) :
    index.val = testCaseId ∧ env.teTestRunning = false ∧
      (env.teTestCases index).teosConfigured = true := by
  obtain ⟨-, i, hi, hrest⟩ := checkPortAndId_ok hcheck
  split_ifs at hrest with hrunning hconfigured
  cases hrest
  exact ⟨hi, by simpa using hrunning, by simpa using hconfigured⟩

theorem updateCheck_ok
    {tcType : TestCaseType}
    (hcheck : testMgmtUpdateTestCaseCheck pf env testCaseId tcType = .ok index) :
    pf.ethPort < pf.devCount ∧ index.val = testCaseId ∧ env.teTestRunning = false ∧
      (env.teTestCases index).teosConfigured = true := by
  obtain ⟨hport, i, hi, hrest⟩ := checkPortAndId_ok hcheck
  split_ifs at hrest with hrunning hconfigured htype
  cases hrest
  exact ⟨hport, hi, by simpa using hrunning, by simpa using hconfigured⟩

end Checks

section Inversion

variable {pf : Platform} {s : Mgmt}

theorem added_cases
    {fuel : Nat} {arg : Option TestCase} {result : Mgmt × Reply}
    (hrun : testMgmtAddTestCase pf fuel s arg = .ok result) :
    Refused s result ∨
      ∃ cfg index imix, arg = some cfg ∧
        testMgmtAddTestCaseCheck pf s.env cfg.tcId = .ok index ∧
        validates pf s cfg ∧ addCfg cfg fuel s.imix cfg.tcApp = .ok imix ∧
        result = (⟨s.env.addEntry pf index cfg, imix⟩, none) := by
  cases arg with
  | none =>
      obtain rfl := Except.ok.inj hrun
      exact .inl (refused_error s _)
  | some cfg =>
      rw [testMgmtAddTestCase] at hrun
      cases hcheck : testMgmtAddTestCaseCheck pf s.env cfg.tcId with
      | error err =>
          rw [hcheck] at hrun
          obtain rfl := Except.ok.inj hrun
          exact .inl (refused_error s err)
      | ok index =>
          rw [hcheck] at hrun
          obtain ⟨valid, hvalid, hrest⟩ := bind_returns hrun
          cases valid with
          | false =>
              obtain rfl := Except.ok.inj hrest
              exact .inl (refused_error s _)
          | true =>
              obtain ⟨imix, hadd, hlast⟩ := bind_returns hrest
              obtain rfl := Except.ok.inj hlast
              exact .inr ⟨cfg, index, imix, rfl, hcheck, ⟨fuel, hvalid⟩, hadd, rfl⟩

theorem deleted_cases
    {fuel testCaseId : Nat} {result : Mgmt × Reply}
    (hrun : testMgmtDelTestCase pf fuel s testCaseId = .ok result) :
    Refused s result ∨
      ∃ index imix, testMgmtDelTestCaseCheck pf s.env testCaseId = .ok index ∧
        deleteCfg fuel s.imix (s.app index) = .ok imix ∧
        result = (⟨s.env.delEntry index, imix⟩, none) := by
  rw [testMgmtDelTestCase] at hrun
  cases hcheck : testMgmtDelTestCaseCheck pf s.env testCaseId with
  | error err =>
      rw [hcheck] at hrun
      obtain rfl := Except.ok.inj hrun
      exact .inl (refused_error s err)
  | ok index =>
      rw [hcheck] at hrun
      obtain ⟨imix, hdelete, hlast⟩ := bind_returns hrun
      obtain rfl := Except.ok.inj hlast
      exact .inr ⟨index, imix, rfl, hdelete, rfl⟩

/-- An update is refused, stores its fields, or stores them and then refuses the latency. -/
theorem refused_or_updated
    (testCaseId : Nat) (update : UpdateArg) :
    Refused s (testMgmtUpdateTestCase pf s testCaseId (some update)) ∧
        (∀ index, testMgmtUpdateTestCaseCheck pf s.env testCaseId
          (if update.clientOnly then .client else .max) ≠ .ok index) ∨
      ∃ index, testMgmtUpdateTestCaseCheck pf s.env testCaseId
          (if update.clientOnly then .client else .max) = .ok index ∧
        testMgmtUpdateTestCase pf s testCaseId (some update) =
          match update.uaLatency with
          | none =>
              ({ s with
                  env := s.env.setCfg index
                    (updateFields update (s.env.teTestCases index).cfg) }, none)
          | some latency =>
              if latencyRefused latency then
                ({ s with
                    env := s.env.setCfg index
                      (updateFields update (s.env.teTestCases index).cfg) }, some .einval)
              else
                ({ s with
                    env := s.env.setCfg index
                      (withLatency (updateFields update (s.env.teTestCases index).cfg) latency) },
                  none) := by
  unfold testMgmtUpdateTestCase
  cases hcheck : testMgmtUpdateTestCaseCheck pf s.env testCaseId
      (if update.clientOnly then .client else .max) with
  | error err =>
      simp only [hcheck]
      exact .inl ⟨refused_error s err, nofun⟩
  | ok index =>
      refine .inr ⟨index, rfl, ?_⟩
      simp only [hcheck]
      cases update.uaLatency <;> rfl

theorem updatedApp_cases
    {fuel testCaseId : Nat} {arg : Option App} {result : Mgmt × Reply}
    (hrun : testMgmtUpdateTestCaseApp pf fuel s testCaseId arg = .ok result) :
    Refused s result ∨
      ∃ appCfg index imix imix',
        testMgmtUpdateTestCaseCheck pf s.env testCaseId .max = .ok index ∧
        validates pf s (withApp (s.env.teTestCases index).cfg appCfg) ∧
        deleteCfg fuel s.imix (s.app index) = .ok imix ∧
        addCfg (withApp (s.env.teTestCases index).cfg appCfg) fuel imix appCfg = .ok imix' ∧
        result =
          (⟨s.env.setCfg index (withApp (s.env.teTestCases index).cfg appCfg), imix'⟩, none) := by
  cases arg with
  | none =>
      obtain rfl := Except.ok.inj hrun
      exact .inl (refused_error s _)
  | some appCfg =>
      rw [testMgmtUpdateTestCaseApp] at hrun
      cases hcheck : testMgmtUpdateTestCaseCheck pf s.env testCaseId .max with
      | error err =>
          rw [hcheck] at hrun
          obtain rfl := Except.ok.inj hrun
          exact .inl (refused_error s err)
      | ok index =>
          rw [hcheck] at hrun
          obtain ⟨valid, hvalid, hrest⟩ := bind_returns hrun
          cases valid with
          | false =>
              obtain rfl := Except.ok.inj hrest
              exact .inl (refused_error s _)
          | true =>
              obtain ⟨imix, hdelete, hrest⟩ := bind_returns hrest
              obtain ⟨imix', hadd, hlast⟩ := bind_returns hrest
              obtain rfl := Except.ok.inj hlast
              exact .inr ⟨appCfg, index, imix, imix', rfl, ⟨fuel, hvalid⟩, hdelete, hadd, rfl⟩

/-- The deletion of an application that a new one takes the place of. -/
theorem deleted_updatedApp
    {fuel : Nat} {index : Fin tpgTestMaxEntries} {appCfg : App} {imix : Imix}
    (hbook : Bookkeeping s)
    (hconfigured : (s.env.teTestCases index).teosConfigured = true)
    (hdelete : deleteCfg fuel s.imix (s.app index) = .ok imix) :
    Deleted (withApp (s.env.teTestCases index).cfg appCfg) (s.app index) s.imix imix :=
  (hbook.held index hconfigured).deleted rfl rfl hdelete

/-- Setting TCP or VLAN options leaves the configuration and the IPv4 options alone. -/
theorem refused_or_setTcpSockopt
    (testCaseId : Nat) (arg : Option TcpSockoptMsg) :
    Refused s (testMgmtSetTcpSockopt pf s testCaseId arg) ∨
      ∃ index sockopt, testMgmtUpdateTestCaseCheck pf s.env testCaseId .max = .ok index ∧
        sockopt.soIpv4 = (s.env.teTestCases index).sockopt.soIpv4 ∧
        testMgmtSetTcpSockopt pf s testCaseId arg =
          ({ s with env := s.env.setSockopt index sockopt }, none) := by
  cases arg with
  | none =>
      exact .inl (refused_error s _)
  | some opts =>
      unfold testMgmtSetTcpSockopt
      cases hcheck : testMgmtUpdateTestCaseCheck pf s.env testCaseId .max with
      | error err =>
          exact .inl (refused_error s err)
      | ok index =>
          simp only
          split_ifs with htcp hvalid
          · exact .inl (refused_error s _)
          · exact .inl (refused_error s _)
          · refine .inr ⟨index, _, rfl, ?_, rfl⟩
            rfl

theorem refused_or_setVlanSockopt
    (testCaseId : Nat) (arg : Option VlanSockoptMsg) :
    Refused s (testMgmtSetVlanSockopt pf s testCaseId arg) ∨
      ∃ index sockopt, testMgmtUpdateTestCaseCheck pf s.env testCaseId .max = .ok index ∧
        sockopt.soIpv4 = (s.env.teTestCases index).sockopt.soIpv4 ∧
        testMgmtSetVlanSockopt pf s testCaseId arg =
          ({ s with env := s.env.setSockopt index sockopt }, none) := by
  cases arg with
  | none =>
      exact .inl (refused_error s _)
  | some opts =>
      unfold testMgmtSetVlanSockopt
      cases hcheck : testMgmtUpdateTestCaseCheck pf s.env testCaseId .max with
      | error err =>
          exact .inl (refused_error s err)
      | ok index =>
          simp only
          split_ifs with hvalid
          · exact .inl (refused_error s _)
          · refine .inr ⟨index, _, rfl, ?_, rfl⟩
            rfl

theorem validateIpv4_copy
    (oldOpts opts : Ipv4SockoptMsg) :
    testMgmtValidateIpv4Sockopt (copyIpv4Sockopt oldOpts opts) =
      testMgmtValidateIpv4Sockopt opts := by
  unfold testMgmtValidateIpv4Sockopt copyIpv4Sockopt copyField Opt.above setField
  cases opts.ip4soTos.has <;> simp

theorem refused_or_setIpv4Sockopt
    (testCaseId : Nat) (opts : Ipv4SockoptMsg) :
    Refused s (testMgmtSetIpv4Sockopt pf s testCaseId (some opts)) ∧
        (∀ index, testMgmtUpdateTestCaseCheck pf s.env testCaseId .max = .ok index →
          testMgmtValidateIpv4Sockopt opts = false) ∨
      ∃ index sockopt,
        testMgmtUpdateTestCaseCheck pf s.env testCaseId .max = .ok index ∧
        testMgmtValidateIpv4Sockopt opts = true ∧
        sockopt.soIpv4.ip4soTxTstamp =
          (if opts.ip4soTxTstamp.has then opts.ip4soTxTstamp.val
            else (s.env.teTestCases index).sockopt.soIpv4.ip4soTxTstamp) ∧
        testMgmtSetIpv4Sockopt pf s testCaseId (some opts) =
          ({ s with env := s.env.setSockopt index sockopt }, none) := by
  unfold testMgmtSetIpv4Sockopt
  cases hcheck : testMgmtUpdateTestCaseCheck pf s.env testCaseId .max with
  | error err =>
      exact .inl ⟨refused_error s err, nofun⟩
  | ok index =>
      simp only [validateIpv4_copy]
      cases hvalid : testMgmtValidateIpv4Sockopt opts with
      | false =>
          exact .inl ⟨refused_error s _, fun _ _ => rfl⟩
      | true =>
          refine .inr ⟨index, _, rfl, rfl, ?_, by simp; rfl⟩
          simp only [ipv4StoreSockopt, copyIpv4Sockopt, copyField, ipv4LoadSockopt, setField]
          split_ifs <;> rfl

theorem refused_or_addedImixGroup
    (imixId : Nat) (arg : Option (List ImixApp)) :
    Refused s (testMgmtAddImixGroup s imixId arg) ∨
      ∃ apps, (s.imix.groups imixId).tigConfigured = false ∧
        testMgmtValidateImixGroup apps = true ∧
        testMgmtAddImixGroup s imixId arg =
          (s.setGroup imixId
            { s.imix.groups imixId with tigApps := apps, tigConfigured := true }, none) := by
  cases arg with
  | none =>
      exact .inl (refused_error s _)
  | some apps =>
      simp only [testMgmtAddImixGroup]
      split_ifs with hid hconfigured hvalid
      · exact .inl (refused_error s _)
      · exact .inl (refused_error s _)
      · exact .inl (refused_error s _)
      · exact .inr ⟨apps, by simpa using hconfigured, by simpa using hvalid, rfl⟩

theorem refused_or_deletedImixGroup
    (imixId : Nat) :
    Refused s (testMgmtDelImixGroup s imixId) ∨
      (s.imix.groups imixId).tigReferenced = false ∧
        testMgmtDelImixGroup s imixId =
          (s.setGroup imixId { s.imix.groups imixId with tigConfigured := false }, none) := by
  unfold testMgmtDelImixGroup
  split_ifs with hid hconfigured hreferenced
  · exact .inl (refused_error s _)
  · exact .inl (refused_error s _)
  · exact .inl (refused_error s _)
  · exact .inr ⟨by simpa using hreferenced, rfl⟩

end Inversion

/-! ## What each change keeps -/

@[simp] theorem setEntry_self
    (env : TestEnv) (index : Fin tpgTestMaxEntries) (entry : TestEntry) :
    (env.setEntry index entry).teTestCases index = entry :=
  Function.update_self ..

@[simp] theorem setEntry_count
    (env : TestEnv) (index : Fin tpgTestMaxEntries) (entry : TestEntry) :
    (env.setEntry index entry).teTestCasesCount = env.teTestCasesCount :=
  rfl

theorem setEntry_of_ne
    {env : TestEnv} {index j : Fin tpgTestMaxEntries} {entry : TestEntry}
    (hj : j ≠ index) :
    (env.setEntry index entry).teTestCases j = env.teTestCases j :=
  Function.update_of_ne hj ..

@[simp] theorem setCfg_self
    (env : TestEnv) (index : Fin tpgTestMaxEntries) (cfg : TestCase) :
    (env.setCfg index cfg).teTestCases index = { env.teTestCases index with cfg := cfg } :=
  Function.update_self ..

@[simp] theorem setCfg_count
    (env : TestEnv) (index : Fin tpgTestMaxEntries) (cfg : TestCase) :
    (env.setCfg index cfg).teTestCasesCount = env.teTestCasesCount :=
  rfl

section Steps

variable {pf : Platform} {s : Mgmt} {index : Fin tpgTestMaxEntries}

/-- What is below a test case is in use, for every test case with another id. -/
theorem Bookkeeping.usedByOther
    {j : Fin tpgTestMaxEntries} {imixId : Nat} {cfg : TestCase}
    (hbook : Bookkeeping s)
    (hj : j ≠ index)
    (hconfigured : (s.env.teTestCases j).teosConfigured = true)
    (hbelow : Below s.members (s.app j) (.imix imixId))
    (hid : cfg.tcId = index.val) :
    (s.imix.groups imixId).usedByOther cfg = true := by
  refine usedByOther_of_owned ((hbook.held j hconfigured).group_below hbelow).2 fun h => hj ?_
  exact Fin.ext ((hbook.ids j hconfigured).symm.trans (h.2.trans hid))

theorem change_added
    {fuel : Nat} {cfg : TestCase} {imix : Imix}
    (hbook : Bookkeeping s)
    (hcheck : testMgmtAddTestCaseCheck pf s.env cfg.tcId = .ok index)
    (hvalid : validates pf s cfg)
    (hadd : addCfg cfg fuel s.imix cfg.tcApp = .ok imix) :
    Change s ⟨s.env.addEntry pf index cfg, imix⟩ index := by
  obtain ⟨hindex, -, hconfigured⟩ := addCheck_ok hcheck
  obtain ⟨hmarks, -, hheld⟩ := addCfg_spec fuel _ _ _ (validates_iff.1 hvalid).app.takeable hadd
  constructor
  · intro j hj
    exact setEntry_of_ne hj
  · intro j hj hj' imixId hbelow
    exact hmarks.others imixId (hbook.usedByOther hj hj' hbelow hindex.symm)
  · simp [TestEnv.addEntry, configuredBit, hconfigured]
  · intro _
    simpa [TestEnv.addEntry] using hindex.symm
  · intro _
    simpa [TestEnv.addEntry, Mgmt.app] using hheld

theorem change_deleted
    {testCaseId : Nat} {imix : Imix}
    (hbook : Bookkeeping s)
    (hcount : s.env.teTestCasesCount = configuredCount s.env)
    (hcheck : testMgmtDelTestCaseCheck pf s.env testCaseId = .ok index)
    (hdeleted : Deleted (s.env.teTestCases index).cfg (s.app index) s.imix imix) :
    Change s ⟨s.env.delEntry index, imix⟩ index := by
  obtain ⟨-, -, hconfigured⟩ := delCheck_ok hcheck
  constructor
  · intro j hj
    exact setEntry_of_ne hj
  · intro j hj hj' imixId hbelow
    exact hdeleted.frame.others imixId
      (hbook.usedByOther hj hj' hbelow (hbook.ids index hconfigured))
  · have hpos : 0 < configuredCount s.env :=
      Finset.card_pos.2 ⟨index, by simpa using hconfigured⟩
    simp only [TestEnv.delEntry, setEntry_self, configuredBit, hconfigured, if_true]
    simp
    omega
  · simp [TestEnv.delEntry]
  · simp [TestEnv.delEntry]

/-- Storing something else into a configured entry, with the same id and the same application. -/
theorem change_stored
    (hbook : Bookkeeping s)
    (hconfigured : (s.env.teTestCases index).teosConfigured = true)
    (entry : TestEntry)
    (hentry : entry.teosConfigured = true)
    (hport : entry.cfg.tcEthPort = (s.env.teTestCases index).cfg.tcEthPort)
    (hid : entry.cfg.tcId = (s.env.teTestCases index).cfg.tcId)
    (happ : entry.cfg.tcApp = (s.env.teTestCases index).cfg.tcApp) :
    Change s { s with env := s.env.setEntry index entry } index := by
  constructor
  · intro j hj
    exact setEntry_of_ne hj
  · intro j hj hj' imixId hbelow
    rfl
  · simp [configuredBit, hconfigured, hentry]
  · intro _
    simp only [setEntry_self]
    exact hid.trans (hbook.ids index hconfigured)
  · intro _
    simp only [Mgmt.app, setEntry_self]
    rw [happ]
    exact (hbook.held index hconfigured).of_ids hport hid

theorem change_updatedApp
    {fuel : Nat} {appCfg : App} {imix imix' : Imix}
    (hbook : Bookkeeping s)
    (hconfigured : (s.env.teTestCases index).teosConfigured = true)
    (hframe : Frame (withApp (s.env.teTestCases index).cfg appCfg) s.imix.groups imix.groups)
    (htake : Takeable (withApp (s.env.teTestCases index).cfg appCfg) s.imix.groups appCfg)
    (hadd : addCfg (withApp (s.env.teTestCases index).cfg appCfg) fuel imix appCfg = .ok imix') :
    Change s ⟨s.env.setCfg index (withApp (s.env.teTestCases index).cfg appCfg), imix'⟩ index := by
  have hid := hbook.ids index hconfigured
  obtain ⟨hmarks, -, hheld⟩ := addCfg_spec fuel _ _ _ (htake.frame hframe) hadd
  constructor
  · intro j hj
    exact setEntry_of_ne hj
  · intro j hj hj' imixId hbelow
    exact (hframe.trans hmarks.toFrame).others imixId (hbook.usedByOther hj hj' hbelow hid)
  · simp [configuredBit]
  · intro _
    simp only [setCfg_self]
    exact hid
  · intro _
    simp only [Mgmt.app, setCfg_self]
    exact hheld

end Steps

/-! ## When a call is well behaved -/

/-- Every field of the update that is present repeats the value of the test case. -/
structure Repeats (update : UpdateArg) (cfg : TestCase) : Prop where
  rates : ∀ client, cfg.side = .client client →
    (∀ rate ∈ update.uaRateOpen, rate = client.clRates.rcOpenRate) ∧
      (∀ rate ∈ update.uaRateClose, rate = client.clRates.rcCloseRate) ∧
      (∀ rate ∈ update.uaRateSend, rate = client.clRates.rcSendRate)
  initDelay : ∀ delay ∈ update.uaInitDelay, delay = cfg.tcInitDelay.val
  uptime : ∀ delay ∈ update.uaUptime, delay = cfg.tcUptime.val
  downtime : ∀ delay ∈ update.uaDowntime, delay = cfg.tcDowntime.val
  criteria : ∀ criteria ∈ update.uaCriteria, criteria = cfg.tcCriteria
  async : ∀ isAsync ∈ update.uaAsync, isAsync = cfg.tcAsync

/--
The latency of an update is within the limit, or it is refused, having been given, and what was
stored before repeats the test case.
-/
def UpdateMeets (pf : Platform) (s : Mgmt) (testCaseId : Nat) (update : UpdateArg) : Prop :=
  ∀ index latency,
    testMgmtUpdateTestCaseCheck pf s.env testCaseId
      (if update.clientOnly then .client else .max) = .ok index →
    update.uaLatency = some latency →
    latency.tcsSamples.val ≤ tpgTstampSamplesMaxBufsize ∨
      (latency.tcsSamples.has = true ∧ Repeats update (s.env.teTestCases index).cfg)

/--
Transmit timestamps of the IPv4 layer are not turned on under a RAW application of the test case
that takes them too.
-/
def SockoptMeets (pf : Platform) (s : Mgmt) (testCaseId : Nat) (opts : Ipv4SockoptMsg) : Prop :=
  ∀ index, testMgmtUpdateTestCaseCheck pf s.env testCaseId .max = .ok index →
    testMgmtValidateIpv4Sockopt opts = true →
    opts.ip4soTxTstamp.bool = true →
    (s.env.teTestCases index).cfg.tcEthPort = pf.ethPort →
    ∀ b, Below s.members (s.app index) (.basic b) → b.takesTxTstamp = false

/-- Deleting the application `old` frees no text that the validation of `app` looks into. -/
def Unread (s : Mgmt) (old app : App) : Prop :=
  ∀ block, Frees s.members old block → ¬ LooksInto s.members app block

/-- The same for the applications of all other test cases. -/
def OthersUnread (s : Mgmt) (index : Fin tpgTestMaxEntries) : Prop :=
  ∀ j, j ≠ index → (s.env.teTestCases j).teosConfigured = true →
    Unread s (s.app index) (s.app j)

/-- The walks down from the applications of a call come to an end. -/
def WalksEnd (pf : Platform) (s : Mgmt) : Call → Prop
  | .addTestCase arg =>
      ∀ cfg ∈ arg, ∀ index, testMgmtAddTestCaseCheck pf s.env cfg.tcId = .ok index →
        DefinitionGrounded (testMgmtGetIpv4Sockopt pf s.env) pf.devCount s.imix cfg
  | .delTestCase testCaseId =>
      ∀ index, testMgmtDelTestCaseCheck pf s.env testCaseId = .ok index →
        Deletable s.imix (s.app index)
  | .updateTestCaseApp testCaseId arg =>
      ∀ appCfg ∈ arg, ∀ index, testMgmtUpdateTestCaseCheck pf s.env testCaseId .max = .ok index →
        DefinitionGrounded (testMgmtGetIpv4Sockopt pf s.env) pf.devCount s.imix
            (withApp (s.env.teTestCases index).cfg appCfg) ∧
          (validates pf s (withApp (s.env.teTestCases index).cfg appCfg) →
            Deletable s.imix (s.app index))
  | _ => True

/-- What a call stores and frees leaves the configured test cases acceptable, and an error nothing
stored. -/
def KeepsConfig (pf : Platform) (s : Mgmt) : Call → Prop
  | .delTestCase testCaseId =>
      ∀ index, testMgmtDelTestCaseCheck pf s.env testCaseId = .ok index → OthersUnread s index
  | .updateTestCaseApp testCaseId arg =>
      ∀ appCfg ∈ arg, ∀ index, testMgmtUpdateTestCaseCheck pf s.env testCaseId .max = .ok index →
        validates pf s (withApp (s.env.teTestCases index).cfg appCfg) →
          OthersUnread s index ∧ Unread s (s.app index) appCfg
  | .updateTestCase testCaseId (some update) => UpdateMeets pf s testCaseId update
  | .setIpv4Sockopt testCaseId (some opts) => SockoptMeets pf s testCaseId opts
  | _ => True

/-- The condition on a step. -/
def CallMeets (pf : Platform) (s : Mgmt) : Input → Prop
  | .call c => WalksEnd pf s c ∧ KeepsConfig pf s c
  | .testsRunning _ => True

section Conclusion

variable {pf : Platform} {s : Mgmt}

end Conclusion

/-- The port before its first test case: whatever is left in the table, nothing is configured. -/
def initial (imix : Imix) (left : Fin tpgTestMaxEntries → TestEntry) : Mgmt where
  env :=
    { teTestRunning := false
      teTestCasesCount := 0
      teTestCases := fun index => { left index with teosConfigured := false } }
  imix := imix

/-- One port, with checksum offload. -/
def onePort : Platform where
  devCount := 1
  ethPort := 0
  txOffloadCapa := fun _ => ⟨true, true, true⟩
  otherSockopts := fun _ _ => none

/-- A RAW client with transmit timestamps, opening ten sessions per second. -/
def rawClientCase : TestCase where
  tcEthPort := 0
  tcId := 3
  side := .client
    { clSrcIps := ⟨tpgIpv4 0x0A000001, tpgIpv4 0x0A000001⟩
      clDstIps := ⟨tpgIpv4 0x0A000002, tpgIpv4 0x0A000002⟩
      clL4 := ⟨.tcp, ⟨10000, 10009⟩, ⟨80, 80⟩⟩
      clRates := ⟨some 10, none, none⟩
      clMcastSrc := false }
  tcInitDelay := ⟨false, some 0⟩
  tcUptime := ⟨false, none⟩
  tcDowntime := ⟨false, none⟩
  tcApp := .basic (.rawClient ⟨100, 200, ⟨false, false⟩, ⟨true, true⟩⟩)
  tcCriteria := .runTime 10
  tcAsync := false
  hasTcLatency := false
  tcLatency := ⟨⟨false, 0⟩, ⟨false, 0⟩, ⟨false, 0⟩⟩

def nothingLeft : Fin tpgTestMaxEntries → TestEntry := fun _ =>
  ⟨rawClientCase, false, testInitSockoptDefaults onePort rawClientCase⟩

/-- No groups, and nothing freed. -/
def noGroups : Imix where
  groups := fun _ => ⟨[], false, false, 0, 0⟩
  freed := []

section Runs

variable {pf : Platform} {imix : Imix} {left : Fin tpgTestMaxEntries → TestEntry}

end Runs

/-- The place of the test cases that are added here. -/
abbrev sampleIndex : Fin tpgTestMaxEntries := 3

end ManagementApi
end Warp17
