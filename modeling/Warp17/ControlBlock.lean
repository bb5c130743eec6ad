import Warp17.MbufChains

/-!
# The TCP control block

The fields of `tcp_control_block_t` that the TCP state machine reads or writes, the socket
options it looks up, the segment it is handed, and the effects of a transition: packets
handed to the IP layer, notifications to the test case, calls of the application's delivery
callback, state entries, failed assertions and changes of the gauge `tsms_missing_seq`, in
program order.  The gauge `tsms_snd_win_full` changes together with the notifications about
the send window.

Other counters that only statistics read, the packet trace flag, time stamps and the addresses
of a connection have no influence on any transition and are left out.
-/

namespace Warp17
namespace ControlBlock

open SequenceComparison MbufChains

/-- `tcpState_t`. -/
inductive TcpState
  | init
  | listen
  | synSent
  | synRecv
  | established
  | finWaitI
  | finWaitII
  | lastAck
  | closing
  | timeWait
  | closeWait
  | closed
deriving DecidableEq, Repr

/-- `tcp_sockopt_t`; the timeouts are microseconds. -/
structure TcpSockopt where
  tcpoWinSize : U32
  tcpoSynRetryCnt : BitVec 8
  tcpoSynAckRetryCnt : BitVec 8
  tcpoDataRetryCnt : BitVec 8
  tcpoRetryCnt : BitVec 8
  tcpoRto : U32
  tcpoFinTo : U32
  tcpoTwaitTo : U32
  tcpoOrphanTo : U32
  tcpoSkipTimewait : Bool
  tcpoAckDelay : Bool
deriving DecidableEq, Repr

/-- What a connection runs on: its socket options, `TCB_MTU` and the ranges of the timer wheels. -/
structure TcpConfig where
  sockopt : TcpSockopt
  /-- `TCB_MTU(tcb)` -/
  mtu : Nat
  /-- `gcfg_rto_tmr_max`, in microseconds -/
  rtoTmrMax : U32
  /-- `gcfg_slow_tmr_max`, in microseconds -/
  slowTmrMax : U32
deriving DecidableEq, Repr

/-- `tcb_snd_t`. -/
structure TcbSnd where
  una : U32
  nxt : U32
  wnd : U32
  wl1 : U32
  wl2 : U32
  iss : U32
deriving DecidableEq, Repr

/-- `tcb_rcv_t`. -/
structure TcbRcv where
  nxt : U32
  wnd : U32
  up : U32
  irs : U32
deriving DecidableEq, Repr

/-- `tcb_retrans_t`; `tr_last_mbuf` is the identity of the mbuf it points to. -/
structure TcbRetrans where
  dataMbufs : Chain
  lastMbuf : Option Nat
  totalSize : U32
deriving DecidableEq, Repr

/-- `tcb_buf_hdr_t`: one node of the receive buffer. -/
structure TcbBufHdr where
  mbuf : Chain
  segSeq : U32
deriving DecidableEq, Repr

/-- `tbh_mbuf->pkt_len`. -/
def TcbBufHdr.pktLen (h : TcbBufHdr) : U32 :=
  chainPktLen h.mbuf

/-- The sequence number just after a node, as the code computes it. -/
def TcbBufHdr.segEnd (h : TcbBufHdr) : U32 :=
  h.segSeq + h.pktLen

/-- `tcp_control_block_t`. -/
structure Tcb where
  state : TcpState
  snd : TcbSnd
  rcv : TcbRcv
  retrans : TcbRetrans
  rcvBuf : List TcbBufHdr
  active : Bool
  onSlowList : Bool
  onRtoList : Bool
  retransCnt : BitVec 8
  finRcvd : Bool
  rstRcvd : Bool
  rcvFinSeq : U32
  /-- the block can be found by `tlkp_find_v4_tcb` -/
  inHtable : Bool
deriving DecidableEq, Repr

/-- The flags of a TCP header. -/
structure TcpFlags where
  fin : Bool := false
  syn : Bool := false
  rst : Bool := false
  psh : Bool := false
  ack : Bool := false
  urg : Bool := false
deriving DecidableEq, Repr

/-- What the state machine reads of a received packet (`packet_control_block_t`). -/
structure Pcb where
  flags : TcpFlags
  sentSeq : U32
  recvAck : U32
  rxWin : BitVec 16
  tcpUrp : BitVec 16
  /-- `pcb_l5_len` -/
  l5Len : U32
  /-- `pcb_mbuf`, the headers stripped -/
  mbuf : Chain
deriving DecidableEq, Repr

/-- `TEST_NOTIF_*`, as far as the state machines send them. -/
inductive TestNotif
  | tmrFired
  | sessConnecting
  | sessConnected
  | sessConnectedImm
  | sessListen
  | sessSrvConnected
  | sessClosing
  | sessClosed
  | sessWinAvail
  | sessWinUnavail
  | appSendStart
  | appSendStop
  | appClose
deriving DecidableEq, Repr

/-- A packet handed to the IP layer. -/
structure TxPkt where
  seq : U32
  ack : U32
  flags : TcpFlags
  wnd : BitVec 16
  data : List UInt8
deriving DecidableEq, Repr

/-- One call of the application's delivery callback. -/
structure DeliverCall where
  /-- the bytes of the chain that the callback is shown -/
  shown : List UInt8
  /-- what it returned -/
  consumed : U32
deriving DecidableEq, Repr

/-- The effects of a transition. -/
inductive TcpOutput
  | pkt (p : TxPkt)
  | notif (n : TestNotif)
  | deliver (call : DeliverCall)
  | enter (s : TcpState)
  | asserted
  /-- `tsms_missing_seq` is incremented or decremented -/
  | missingSeq (more : Bool)
deriving DecidableEq, Repr

/-- What the delivery callback does: consume bytes, or ask to close and consume nothing. -/
inductive DeliverAnswer
  | consume (bytes : U32)
  | close
deriving DecidableEq, Repr

/-- The application during one transition: its answer to the `i`-th delivery of these bytes. -/
abbrev DeliverCb := Nat → List UInt8 → DeliverAnswer

/-- What the environment decides during one transition. -/
structure TsmEnv where
  cfg : TcpConfig
  answer : DeliverCb
  /-- cloning and handing down the `i`-th data segment of the transition succeeds -/
  sendOk : Nat → Bool
  /-- `test_sm_has_data_pending()` -/
  dataPending : Bool

/-- The negative results of the state machine. -/
inductive Errno
  | enotconn
  | enomem
  | eagain
deriving DecidableEq, Repr

/-- A control block in the middle of a transition, and the effects so far. -/
structure Tsm where
  tcb : Tcb
  out : List TcpOutput
  err : Option Errno
  /-- `*tda_data_sent` -/
  dataSent : U32
deriving DecidableEq, Repr

/-- The start of a transition. -/
def Tsm.start (tcb : Tcb) : Tsm :=
  { tcb := tcb, out := [], err := none, dataSent := 0 }

/-- One more effect. -/
def Tsm.emit (c : Tsm) (o : TcpOutput) : Tsm :=
  { c with out := c.out ++ [o] }

/-- Return an error. -/
def Tsm.fail (c : Tsm) (e : Errno) : Tsm :=
  { c with err := some e }

@[simp] theorem emit_tcb
    (c : Tsm) (o : TcpOutput) :
    (c.emit o).tcb = c.tcb := by
  rfl

@[simp] theorem emit_out
    (c : Tsm) (o : TcpOutput) :
    (c.emit o).out = c.out ++ [o] := by
  rfl

@[simp] theorem fail_tcb
    (c : Tsm) (e : Errno) :
    (c.fail e).tcb = c.tcb := by
  rfl

@[simp] theorem fail_out
    (c : Tsm) (e : Errno) :
    (c.fail e).out = c.out := by
  rfl

/-- Change the control block only. -/
def Tsm.onTcb (c : Tsm) (f : Tcb → Tcb) : Tsm :=
  { c with tcb := f c.tcb }

@[simp] theorem onTcb_tcb
    (c : Tsm) (f : Tcb → Tcb) :
    (c.onTcb f).tcb = f c.tcb := by
  rfl

@[simp] theorem onTcb_out
    (c : Tsm) (f : Tcb → Tcb) :
    (c.onTcb f).out = c.out := by
  rfl

/-- `TCP_NOTIF(notif, tcb)`. -/
def Tsm.tcpNotif (c : Tsm) (n : TestNotif) : Tsm :=
  c.emit (.notif n)

@[simp] theorem tcpNotif_tcb
    (c : Tsm) (n : TestNotif) :
    (c.tcpNotif n).tcb = c.tcb := by
  rfl

@[simp] theorem tcpNotif_out
    (c : Tsm) (n : TestNotif) :
    (c.tcpNotif n).out = c.out ++ [.notif n] := by
  rfl

/-- `tcp_send_ctrl_pkt_with_sseq()`; the result of handing the packet down is not looked at. -/
def Tsm.tcpSendCtrlPktWithSseq (c : Tsm) (sseq : U32) (flags : TcpFlags) : Tsm :=
  c.emit (.pkt
    { seq := sseq
      ack := c.tcb.rcv.nxt
      flags := flags
      wnd := c.tcb.rcv.wnd.truncate 16
      data := [] })

/-- `tcp_send_ctrl_pkt()` without `TCP_BUILD_FLAG_USE_ISS`. -/
def Tsm.tcpSendCtrlPkt (c : Tsm) (flags : TcpFlags) : Tsm :=
  c.tcpSendCtrlPktWithSseq c.tcb.snd.nxt flags

/-- `tcp_send_ctrl_pkt()` with `TCP_BUILD_FLAG_USE_ISS`. -/
def Tsm.tcpSendCtrlPktUseIss (c : Tsm) (flags : TcpFlags) : Tsm :=
  c.tcpSendCtrlPktWithSseq c.tcb.snd.iss flags

/-- `tcp_send_ack_pkt()`. -/
def Tsm.tcpSendAckPkt (c : Tsm) : Tsm :=
  c.tcpSendCtrlPktWithSseq c.tcb.snd.nxt { ack := true }

@[simp] theorem tcpSendCtrlPktWithSseq_tcb
    (c : Tsm) (sseq : U32) (flags : TcpFlags) :
    (c.tcpSendCtrlPktWithSseq sseq flags).tcb = c.tcb := by
  rfl

@[simp] theorem tcpSendCtrlPkt_tcb
    (c : Tsm) (flags : TcpFlags) :
    (c.tcpSendCtrlPkt flags).tcb = c.tcb := by
  rfl

@[simp] theorem tcpSendCtrlPktUseIss_tcb
    (c : Tsm) (flags : TcpFlags) :
    (c.tcpSendCtrlPktUseIss flags).tcb = c.tcb := by
  rfl

@[simp] theorem tcpSendAckPkt_tcb
    (c : Tsm) :
    c.tcpSendAckPkt.tcb = c.tcb := by
  rfl

end ControlBlock
end Warp17
