import Warp17.TransitionPaths
import Warp17.GuardedRuns

/-!
# Runs of a control block

A control block is opened, or is the clone that a listening block makes for a SYN; then
segments arrive, the application sends and closes, and timers expire, in any order, until it
is closed and can be opened again.  An input of a run is one such event together with what
the environment decides while it is processed.
-/

namespace Warp17
namespace ConnectionRuns

open SequenceComparison MbufChains ControlBlock SendQueue RetransmissionQueue TcpStateMachine

/-- What can happen to a control block. -/
inductive ConnEvent
  /-- `tcp_open_v4_connection()`, active or passive -/
  | open (active : Bool)
  /-- a listening block clones itself for this SYN -/
  | accept (syn : Pcb)
  | send (data : TsmDataArg)
  | close
  | segment (pcb : Pcb)
  | rtoTimer
  | slowTimer
  /-- `tcp_close_connection()` with `TCG_SILENT_CLOSE` -/
  | purge

/-- An event, and what the environment decides while it is processed. -/
structure ConnInput where
  event : ConnEvent
  answer : DeliverCb
  sendOk : Nat → Bool
  dataPending : Bool

/-- The environment of one step. -/
def ConnInput.env (cfg : TcpConfig) (i : ConnInput) : TsmEnv :=
  { cfg := cfg, answer := i.answer, sendOk := i.sendOk, dataPending := i.dataPending }

/-- A control block that `tlkp_alloc_tcb()` has just handed out. -/
def blankTcb : Tcb :=
  { state := .init
    snd := { una := 0, nxt := 0, wnd := 0, wl1 := 0, wl2 := 0, iss := 0 }
    rcv := { nxt := 0, wnd := 0, up := 0, irs := 0 }
    retrans := { dataMbufs := [], lastMbuf := none, totalSize := 0 }
    rcvBuf := []
    active := false
    onSlowList := false
    onRtoList := false
    retransCnt := 0
    finRcvd := false
    rstRcvd := false
    rcvFinSeq := 0
    inHtable := false }

/-- A listening control block; no event but a close changes it. -/
def listenerTcb (env : TsmEnv) : Tcb :=
  (tcpOpenV4Connection env false (Tsm.start blankTcb)).tcb

/-- The transition of one input. -/
def connStep (cfg : TcpConfig) (tcb : Tcb) (i : ConnInput) : Tsm :=
  let env := i.env cfg
  let c := Tsm.start tcb
  match i.event with
  | .open active => tcpOpenV4Connection env active c
  | .accept syn => listenClone env syn (listenerTcb env)
  | .send data => tsmSend env c data
  | .close => tsmClose cfg c
  | .segment pcb => tsmSegmentArrives env pcb c
  | .rtoTimer => tcpHandleRetransTo env c
  | .slowTimer => tcpHandleSlowTo env c
  | .purge => tcpSilentClose c

/-- What can happen to a control block in its present state. -/
def ConnLegal (tcb : Tcb) (i : ConnInput) : Prop :=
  match i.event with
  | .open _ => tcb.inHtable = false
  | .accept syn => tcb.inHtable = false ∧ syn.flags.syn = true
  | .send data => tcb.inHtable = true ∧ SendChainOk tcb data.tdaMbuf
  | .close => tcb.inHtable = true
  | .segment _ => tcb.inHtable = true
  | .rtoTimer => tcb.onRtoList = true
  | .slowTimer => tcb.onSlowList = true
  | .purge => tcb.inHtable = true

instance (tcb : Tcb) (i : ConnInput) : Decidable (ConnLegal tcb i) := by
  unfold ConnLegal
  cases i.event <;> infer_instance

/-- The control block after one input. -/
def tcbStep (cfg : TcpConfig) (tcb : Tcb) (i : ConnInput) : Tcb :=
  (connStep cfg tcb i).tcb

section History

/-- A control block, what it has accepted from the application and sent since it was opened. -/
structure History where
  tcb : Tcb
  accepted : List UInt8
  sent : List TxPkt

/-- A control block that was never opened. -/
def History.blank : History :=
  { tcb := blankTcb, accepted := [], sent := [] }

/-- The packets among the effects of a transition. -/
def packets (out : List TcpOutput) : List TxPkt :=
  out.filterMap fun
    | .pkt p => some p
    | _ => none

@[simp] theorem packets_nil :
    packets [] = [] := by
  rfl

@[simp] theorem packets_append
    (out out' : List TcpOutput) :
    packets (out ++ out') = packets out ++ packets out' := by
  simp [packets]

@[simp] theorem packets_map_pkt
    (ps : List TxPkt) :
    packets (ps.map .pkt) = ps := by
  induction ps with
  | nil =>
      rfl
  | cons p ps ih =>
      simp [packets]

/-- The bytes of a send that were taken, as the application is told. -/
def takenBytes (event : ConnEvent) (c : Tsm) : List UInt8 :=
  match event with
  | .send data => (chainBytes data.tdaMbuf).take c.dataSent.toNat
  | .open _ | .accept _ | .close | .segment _ | .rtoTimer | .slowTimer | .purge => []

/-- Opening a control block starts a new history. -/
def opens : ConnEvent → Bool
  | .open _ | .accept _ => true
  | .send _ | .close | .segment _ | .rtoTimer | .slowTimer | .purge => false

/-- One input, with what it adds to the history. -/
def historyStep (cfg : TcpConfig) (h : History) (i : ConnInput) : History :=
  let c := connStep cfg h.tcb i
  if opens i.event then
    { tcb := c.tcb, accepted := [], sent := packets c.out }
  else
    { tcb := c.tcb
      accepted := h.accepted ++ takenBytes i.event c
      sent := h.sent ++ packets c.out }

theorem historyStep_tcb
    (cfg : TcpConfig) (h : History) (i : ConnInput) :
    (historyStep cfg h i).tcb = (connStep cfg h.tcb i).tcb := by
  simp only [historyStep]
  split <;> rfl

end History

/-- The limit that the retransmission timeout of a state compares with. -/
def retryLimit (cfg : TcpConfig) : TcpState → BitVec 8
  | .synSent => cfg.sockopt.tcpoSynRetryCnt
  | .synRecv => cfg.sockopt.tcpoSynAckRetryCnt
  | .established => cfg.sockopt.tcpoDataRetryCnt
  | .init | .listen | .finWaitI | .finWaitII | .lastAck | .closing | .timeWait | .closeWait
  | .closed => cfg.sockopt.tcpoRetryCnt

section Plain

/-- The default options, and an Ethernet link. -/
def defaultConfig : TcpConfig :=
  { sockopt :=
      { tcpoWinSize := 1024
        tcpoSynRetryCnt := 24
        tcpoSynAckRetryCnt := 24
        tcpoDataRetryCnt := 128
        tcpoRetryCnt := 12
        tcpoRto := 50000
        tcpoFinTo := 100000
        tcpoTwaitTo := 500000
        tcpoOrphanTo := 100000
        tcpoSkipTimewait := false
        tcpoAckDelay := false }
    mtu := 1460
    rtoTmrMax := 30000000
    slowTmrMax := 60000000 }

/-- An event in an environment where nothing fails and the application takes all it is shown. -/
def ConnInput.plain (event : ConnEvent) : ConnInput :=
  { event := event
    answer := fun _ bytes => .consume (BitVec.ofNat 32 bytes.length)
    sendOk := fun _ => true
    dataPending := false }

/-- Data in one mbuf. -/
def plainChain (id : Nat) (data : List UInt8) : Chain :=
  [{ id := id, data := data, pktLen := BitVec.ofNat 32 data.length, nbSegs := 1 }]

/-- A segment with its data in one mbuf. -/
def plainPcb (seq ack : U32) (flags : TcpFlags) (data : List UInt8) : Pcb :=
  { flags := flags
    sentSeq := seq
    recvAck := ack
    rxWin := 1024
    tcpUrp := 0
    l5Len := BitVec.ofNat 32 data.length
    mbuf := if data = [] then [] else plainChain 0 data }

/-- Data that the application pushes. -/
def plainSend (id : Nat) (data : List UInt8) : ConnEvent :=
  .send { tdaMbuf := plainChain id data, tdaPush := true, tdaUrg := false }

end Plain

end ConnectionRuns
end Warp17
