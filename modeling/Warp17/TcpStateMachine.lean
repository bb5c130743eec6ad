import Warp17.ReceiveBuffer
import Warp17.SendQueue

/-!
# The TCP state machine

`tsm_dispatch_event` calls the function of the current state with an event; entering a state
calls the function of the new state with `TE_ENTER_STATE`.  The functions below are the
branches of the `tsm_SF_*` functions, ordered so that a state is entered only by functions
that come later; `tsmDispatchEvent` puts them together.

The application's callback may close the connection in the middle of the processing of a
segment (`tsmHandleIncoming`); the code that follows then works on the state this has left.

Every control block has `tcb_consume_all_data` set, so `CLOSE_WAIT` sends its FIN and goes on
to `LAST_ACK` as soon as it is entered.  The events `TE_RECEIVE`, `TE_ABORT`, `TE_STATUS` and
`TE_USER_TIMEOUT` are never dispatched.
-/

namespace Warp17
namespace TcpStateMachine

open SequenceComparison MbufChains ControlBlock ReceiveBuffer SendQueue

/-- `tcpEvent_t`, without `TE_ENTER_STATE` and the events that are never dispatched. -/
inductive TcpEvent
  | open
  | send (data : TsmDataArg)
  | close
  | segmentArrives (pcb : Pcb)
  | retransmissionTimeout
  | orphanTimeout
  | finTimeout
  | timeWaitTimeout

section EnterState

variable (cfg : TcpConfig)

/-- The part of `tsm_enter_state()` before the event is dispatched. -/
def setState (s : TcpState) (c : Tsm) : Tsm :=
  (c.onTcb fun tcb => { tcb with state := s }).emit (.enter s)

/-- `tcp_close_connection()` with `TCG_SILENT_CLOSE`. -/
def tcpSilentClose (c : Tsm) : Tsm :=
  let c := if c.tcb.rstRcvd then c else c.tcpSendCtrlPkt { ack := true, rst := true }
  c.onTcb fun tcb =>
    { tcb with
      inHtable := false
      onRtoList := false
      onSlowList := false
      -- the tail pointer is not reset
      retrans := { tcb.retrans with dataMbufs := [], totalSize := 0 }
      rcvBuf := [] }

/-- Enter `TS_CLOSED`. -/
def enterClosed (c : Tsm) : Tsm :=
  tcpSilentClose ((setState .closed c).tcpNotif .sessClosed)

/-- Send a FIN with the current sequence number and count it. -/
def sendFin (c : Tsm) : Tsm :=
  (c.tcpSendCtrlPkt { fin := true, ack := true }).onTcb fun tcb =>
    { tcb with snd := { tcb.snd with nxt := tcb.snd.nxt + 1 } }

/-- Enter `TS_LAST_ACK`. -/
def enterLastAck (c : Tsm) : Tsm :=
  (setState .lastAck c).onTcb (tsmScheduleRetransmission cfg)

/-- Enter `TS_CLOSING`. -/
def enterClosing (c : Tsm) : Tsm :=
  (setState .closing c).onTcb (tsmScheduleRetransmission cfg)

/-- Enter `TS_TIME_WAIT`. -/
def enterTimeWait (c : Tsm) : Tsm :=
  let c := (setState .timeWait c).onTcb (tcpTimerSlowCancel ∘ tcpTimerRtoCancel)
  if cfg.sockopt.tcpoSkipTimewait then
    enterClosed c
  else
    c.onTcb (tcpTimerSlowSet cfg cfg.sockopt.tcpoTwaitTo)

/-- Enter `TS_CLOSE_WAIT`, with `tcb_consume_all_data`. -/
def enterCloseWait (c : Tsm) : Tsm :=
  enterLastAck cfg (sendFin (setState .closeWait c))

/-- Enter `TS_FIN_WAIT_I`. -/
def enterFinWaitI (c : Tsm) : Tsm :=
  (sendFin (setState .finWaitI c)).onTcb
    (tcpTimerSlowSet cfg cfg.sockopt.tcpoOrphanTo ∘ tsmScheduleRetransmission cfg)

/-- Enter `TS_FIN_WAIT_II`. -/
def enterFinWaitII (c : Tsm) : Tsm :=
  (setState .finWaitII c).onTcb (tcpTimerSlowSet cfg cfg.sockopt.tcpoFinTo)

/-- Enter `TS_ESTABLISHED`. -/
def enterEstablished (c : Tsm) : Tsm :=
  setState .established c

/-- Enter `TS_SYN_RECV`. -/
def enterSynRecv (c : Tsm) : Tsm :=
  ((setState .synRecv c).tcpNotif .sessSrvConnected).onTcb (tsmScheduleRetransmission cfg)

/-- Enter `TS_SYN_SENT`. -/
def enterSynSent (c : Tsm) : Tsm :=
  ((setState .synSent c).tcpNotif .sessConnecting).onTcb (tsmScheduleRetransmission cfg)

/-- Enter `TS_LISTEN`. -/
def enterListen (c : Tsm) : Tsm :=
  (setState .listen c).tcpNotif .sessListen

/-- Tell the test case that the session goes down, and close it. -/
def notifyAndClose (c : Tsm) : Tsm :=
  enterClosed (c.tcpNotif .sessClosing)

end EnterState

section UserCalls

variable (env : TsmEnv)

/-- `TE_CLOSE` in every state. -/
def tsmClose (cfg : TcpConfig) (c : Tsm) : Tsm :=
  match c.tcb.state with
  | .init => enterClosed c
  | .listen | .synSent => notifyAndClose c
  | .synRecv | .established => enterFinWaitI cfg (c.tcpNotif .sessClosing)
  | .closeWait => c
  | .finWaitI | .finWaitII | .lastAck | .closing | .timeWait | .closed => c.fail .enotconn

/-- `TE_SEND` in every state. -/
def tsmSend (c : Tsm) (data : TsmDataArg) : Tsm :=
  match c.tcb.state with
  | .established | .closeWait => tsmSendData env c data
  | .init | .listen | .synSent | .synRecv | .finWaitI | .finWaitII | .lastAck | .closing
  | .timeWait | .closed => c.fail .enotconn

end UserCalls

section Segments

variable (env : TsmEnv) (pcb : Pcb)

/-- `tsm_do_receive_acceptance_test()`. -/
def tsmDoReceiveAcceptanceTest (tcb : Tcb) (segLen segSeq : U32) : Bool :=
  let inWindow := fun seq =>
    segGE seq tcb.rcv.nxt && segLT seq (tcb.rcv.nxt + tcb.rcv.wnd)
  if segLen = 0 then
    if tcb.rcv.wnd = 0 then decide (segSeq = tcb.rcv.nxt) else inWindow segSeq
  else
    if tcb.rcv.wnd = 0 then false else inWindow segSeq || inWindow (segSeq + segLen - 1)

/-- `tsm_need_ack()`. -/
def tsmNeedAck : Bool :=
  !env.cfg.sockopt.tcpoAckDelay || !env.dataPending

/-- The urgent pointer, when the URG bit is set. -/
def urgTcb (tcb : Tcb) : Tcb :=
  if pcb.flags.urg then
    let urp := pcb.tcpUrp.zeroExtend 32
    { tcb with rcv := { tcb.rcv with up := if tcb.rcv.up < urp then urp else tcb.rcv.up } }
  else
    tcb

/-- The result of `tcp_data_handle()` inside a transition. -/
def handled (c : Tsm) (r : HandleResult) : Tsm :=
  { c with
    tcb := r.tcb
    out := c.out ++ r.calls.map .deliver ++ (if r.asserted then [.asserted] else []) }

/-- The gauge of control blocks with out-of-order data, at the end of `tsm_handle_incoming()`. -/
def countMissingSeq (wasMissing : Bool) (c : Tsm) : Tsm :=
  let missing := !c.tcb.rcvBuf.isEmpty
  if !wasMissing && missing then
    c.emit (.missingSeq true)
  else if wasMissing && !missing then
    c.emit (.missingSeq false)
  else
    c

/--
`tsm_handle_incoming()`: the transition and the number of bytes delivered.  A callback that
asks to close is the last one of the delivery loop, and its request is served before the
loop returns.
-/
def tsmHandleIncoming (c : Tsm) (segSeq segLen : U32) : Tsm × U32 :=
  let wasMissing := !c.tcb.rcvBuf.isEmpty
  let r := tcpDataHandle (urgTcb pcb c.tcb) pcb.mbuf segSeq segLen env.answer
  let c := handled c r
  (countMissingSeq wasMissing (if r.closeAsked then tsmClose env.cfg c else c), r.delivered)

/--
What the segment functions of the synchronized states begin with: the acceptance test, the
RST and SYN bits, the ACK bit.
-/
def segmentPrologue (onRst onSyn onAck : Tsm → Tsm) (c : Tsm) : Tsm :=
  if !tsmDoReceiveAcceptanceTest c.tcb pcb.l5Len pcb.sentSeq then
    if pcb.flags.rst then c else c.tcpSendAckPkt
  else if pcb.flags.rst then
    onRst c
  else if pcb.flags.syn then
    onSyn c
  else if !pcb.flags.ack then
    c
  else
    onAck c

/-- Remember that a RST was received, so that none is sent back. -/
def rstReceived (c : Tsm) : Tsm :=
  c.onTcb fun tcb => { tcb with rstRcvd := true }

/-- Clean up what the segment acknowledges; the number of our FIN is no queued byte. -/
def ackArrived (finSent : Bool) (c : Tsm) : Tsm :=
  if segGT pcb.recvAck c.tcb.snd.una && segLE pcb.recvAck c.tcb.snd.nxt then
    if finSent && decide (pcb.recvAck = c.tcb.snd.nxt) then
      tsmCleanupRetransQueu c (pcb.recvAck - 1)
    else
      tsmCleanupRetransQueu c pcb.recvAck
  else
    c

/-- The acknowledgement is neither old nor above `SND.NXT`. -/
def ackUsable (tcb : Tcb) : Bool :=
  !segLT pcb.recvAck tcb.snd.una && !segGT pcb.recvAck tcb.snd.nxt

/-- Take the send window of the segment. -/
def setSndWnd (tcb : Tcb) : Tcb :=
  { tcb with
    snd :=
      { tcb.snd with
        wnd := pcb.rxWin.zeroExtend 32
        wl1 := pcb.sentSeq
        wl2 := pcb.recvAck } }

/-- Take the send window of a segment that is not older than the last one used. -/
def updateSndWnd (tcb : Tcb) : Tcb :=
  if segGT pcb.sentSeq tcb.snd.wl1 ||
      (decide (pcb.sentSeq = tcb.snd.wl1) && segGE pcb.recvAck tcb.snd.wl2) then
    setSndWnd pcb tcb
  else
    tcb

/-- The ACK processing of the states after the handshake. -/
def ackProcessing (finSent : Bool) (onText : Tsm → Tsm) (c : Tsm) : Tsm :=
  let c := ackArrived pcb finSent c
  if ackUsable pcb c.tcb then
    onText (c.onTcb (updateSndWnd pcb))
  else
    c

/-- Process the segment text, and acknowledge what was delivered. -/
def receiveAndAck (c : Tsm) : Tsm :=
  if pcb.l5Len = 0 then
    c
  else
    let (c, delivered) := tsmHandleIncoming env pcb c pcb.sentSeq pcb.l5Len
    if delivered ≠ 0 && tsmNeedAck env then c.tcpSendAckPkt else c

/-- Process the segment text; the caller acknowledges. -/
def receiveText (c : Tsm) : Tsm :=
  if pcb.l5Len = 0 then
    c
  else
    (tsmHandleIncoming env pcb c pcb.sentSeq pcb.l5Len).1

/-- Step over the FIN of the peer. -/
def consumeFin (c : Tsm) : Tsm :=
  c.onTcb fun tcb => { tcb with rcv := { tcb.rcv with nxt := tcb.rcv.nxt + 1 } }

/-- Remember a FIN that came before some of the data. -/
def rememberFin (c : Tsm) : Tsm :=
  c.onTcb fun tcb =>
    { tcb with finRcvd := true, rcvFinSeq := pcb.sentSeq + pcb.l5Len }

/-- Our SYN is acknowledged. -/
def incUna (c : Tsm) : Tsm :=
  c.onTcb fun tcb => { tcb with snd := { tcb.snd with una := tcb.snd.una + 1 } }

/-- Take the initial receive sequence number from a SYN. -/
def synReceived (tcb : Tcb) : Tcb :=
  { tcb with rcv := { tcb.rcv with nxt := pcb.sentSeq + 1, irs := pcb.sentSeq } }

/-- The part of `tsm_SF_syn_sent()` for a SYN that acknowledges ours. -/
def synAckReceived (c : Tsm) : Tsm :=
  let c := (c.onTcb (setSndWnd pcb)).tcpNotif .sessConnected
  let c := receiveText env pcb c
  let c := enterEstablished (c.onTcb tcpTimerRtoCancel)
  if tsmNeedAck env then c.tcpSendAckPkt else c

/-- The SYN of the peer, in `TS_SYN_SENT`. -/
def synSentSyn (c : Tsm) : Tsm :=
  let c := c.onTcb (synReceived pcb)
  let c :=
    if pcb.flags.ack then tsmCleanupRetransQueu (incUna c) pcb.recvAck else c
  if pcb.flags.ack && segGT c.tcb.snd.una c.tcb.snd.iss then
    synAckReceived env pcb c
  else
    -- both sides have sent a SYN
    enterSynRecv env.cfg (c.tcpSendCtrlPktUseIss { ack := true, syn := true })

/-- `tsm_SF_syn_sent()` with a segment. -/
def synSentSegment (c : Tsm) : Tsm :=
  if pcb.flags.ack &&
      (segLE pcb.recvAck c.tcb.snd.iss || segGT pcb.recvAck c.tcb.snd.nxt) then
    if pcb.flags.rst then c else c.tcpSendCtrlPkt { ack := true, rst := true }
  else if pcb.flags.ack &&
      !(segGE pcb.recvAck c.tcb.snd.una && segLE pcb.recvAck c.tcb.snd.nxt) then
    c
  else if pcb.flags.rst then
    notifyAndClose (rstReceived c)
  else if pcb.flags.syn then
    synSentSyn env pcb c
  else
    c

/-- The end of `tsm_SF_syn_recv()`: our SYN is taken as acknowledged. -/
def synRecvAcked (c : Tsm) : Tsm :=
  let c := receiveAndAck env pcb (c.onTcb (setSndWnd pcb))
  if pcb.flags.fin then
    enterCloseWait env.cfg ((consumeFin c).tcpNotif .sessClosing)
  else
    enterEstablished (c.onTcb tcpTimerRtoCancel)

/-- The ACK processing of `tsm_SF_syn_recv()`; an ACK of nothing new is accepted too. -/
def synRecvAck (c : Tsm) : Tsm :=
  if !(segGE pcb.recvAck c.tcb.snd.una && segLE pcb.recvAck c.tcb.snd.nxt) then
    c.tcpSendCtrlPkt { ack := true, rst := true }
  else
    let c :=
      if segGT pcb.recvAck c.tcb.snd.una then
        tsmCleanupRetransQueu (incUna c) pcb.recvAck
      else
        c
    synRecvAcked env pcb c

/-- `tsm_SF_syn_recv()` with a segment. -/
def synRecvSegment : Tsm → Tsm :=
  segmentPrologue pcb (fun c => notifyAndClose (rstReceived c)) notifyAndClose
    (synRecvAck env pcb)

/-- The FIN of the peer is next in `TS_ESTABLISHED`. -/
def estabConsumeFin (c : Tsm) : Tsm :=
  enterCloseWait env.cfg ((consumeFin c).tcpNotif .sessClosing)

/-- The FIN bit in `TS_ESTABLISHED`. -/
def estabFin (c : Tsm) : Tsm :=
  if pcb.flags.fin then
    if c.tcb.rcv.nxt ≠ pcb.sentSeq + pcb.l5Len then
      rememberFin pcb c
    else
      estabConsumeFin env c
  else if c.tcb.finRcvd && decide (c.tcb.rcv.nxt = c.tcb.rcvFinSeq) then
    estabConsumeFin env c
  else
    c

/-- `tsm_SF_estab()` with a segment. -/
def estabSegment : Tsm → Tsm :=
  segmentPrologue pcb (fun c => notifyAndClose (rstReceived c)) notifyAndClose
    (ackProcessing pcb false fun c => estabFin env pcb (receiveAndAck env pcb c))

/-- The last unacknowledged number is that of our FIN, and the segment acknowledges it. -/
def ourFinAcked (tcb : Tcb) : Bool :=
  decide (tcb.snd.una = tcb.snd.nxt - 1) && decide (pcb.recvAck = tcb.snd.nxt)

/-- Step over a FIN that came early, without a change of state. -/
def finWaitIStepOverFin (c : Tsm) : Tsm :=
  if c.tcb.finRcvd && decide (c.tcb.rcv.nxt = c.tcb.rcvFinSeq) then consumeFin c else c

/-- The FIN bit in `TS_FIN_WAIT_I`; `acked` says that our own FIN was acknowledged. -/
def finWaitIFin (acked : Bool) (c : Tsm) : Tsm :=
  if !pcb.flags.fin then
    let c := (finWaitIStepOverFin c).tcpSendAckPkt
    if acked then enterFinWaitII env.cfg (c.onTcb tcpTimerSlowCancel) else c
  else if c.tcb.rcv.nxt ≠ pcb.sentSeq + pcb.l5Len then
    -- `acked` is lost here
    rememberFin pcb c
  else
    let c := (consumeFin c).tcpSendAckPkt.onTcb tcpTimerSlowCancel
    if acked then enterTimeWait env.cfg c else enterClosing env.cfg c

/-- `tsm_SF_fin_wait_I()` from the segment text on. -/
def finWaitIText (c : Tsm) : Tsm :=
  if ourFinAcked pcb c.tcb then
    finWaitIFin env pcb true (receiveText env pcb (incUna c))
  else
    finWaitIFin env pcb false (receiveText env pcb c)

/-- `tsm_SF_fin_wait_I()` with a segment. -/
def finWaitISegment : Tsm → Tsm :=
  segmentPrologue pcb
    (fun c => enterClosed (rstReceived (c.onTcb tcpTimerSlowCancel)))
    (fun c => enterClosed (c.onTcb tcpTimerSlowCancel))
    (ackProcessing pcb true (finWaitIText env pcb))

/-- `tsm_SF_fin_wait_II()` from the segment text on; the FIN is not compared with `RCV.NXT`. -/
def finWaitIIText (c : Tsm) : Tsm :=
  let c := receiveText env pcb c
  if !pcb.flags.fin then
    c.tcpSendAckPkt
  else
    enterTimeWait env.cfg (consumeFin (c.onTcb tcpTimerSlowCancel)).tcpSendAckPkt

/-- `tsm_SF_fin_wait_II()` with a segment. -/
def finWaitIISegment : Tsm → Tsm :=
  segmentPrologue pcb
    (fun c => enterClosed (rstReceived (c.onTcb tcpTimerSlowCancel)))
    (fun c => enterClosed (c.onTcb tcpTimerSlowCancel))
    (ackProcessing pcb false (finWaitIIText env pcb))

/-- `tsm_SF_last_ack()` with a segment. -/
def lastAckSegment : Tsm → Tsm :=
  segmentPrologue pcb (fun c => enterClosed (rstReceived c)) enterClosed fun c =>
    if pcb.recvAck = c.tcb.snd.nxt then enterClosed c else c

/-- `tsm_SF_closing()` with a segment. -/
def closingSegment : Tsm → Tsm :=
  segmentPrologue pcb (fun c => enterClosed (rstReceived c)) enterClosed <|
    ackProcessing pcb true fun c =>
      if ourFinAcked pcb c.tcb then enterTimeWait env.cfg (c.onTcb tcpTimerRtoCancel) else c

/-- `tsm_SF_time_wait()` with a segment that passes the checks: the 2MSL timer restarts. -/
def timeWaitRestart (c : Tsm) : Tsm :=
  let c := c.tcpSendAckPkt
  let c := if c.tcb.onSlowList then c else c.emit .asserted
  c.onTcb (tcpTimerSlowSet env.cfg env.cfg.sockopt.tcpoTwaitTo ∘ tcpTimerSlowCancel)

/-- `tsm_SF_time_wait()` with a segment; the ACK bit is not looked at. -/
def timeWaitSegment (c : Tsm) : Tsm :=
  if !tsmDoReceiveAcceptanceTest c.tcb pcb.l5Len pcb.sentSeq then
    if pcb.flags.rst then c else c.tcpSendAckPkt
  else if pcb.flags.rst then
    enterClosed (rstReceived c)
  else if pcb.flags.syn then
    enterClosed c
  else
    timeWaitRestart env c

/-- `tsm_SF_close_wait()` with a segment. -/
def closeWaitSegment : Tsm → Tsm :=
  segmentPrologue pcb (fun c => enterClosed (rstReceived c)) enterClosed
    (ackProcessing pcb false fun c => c)

/-- `tsm_SF_closed()` with a segment: the answer to a segment of no connection. -/
def closedSegment (c : Tsm) : Tsm :=
  if pcb.flags.rst then
    c
  else if pcb.flags.ack then
    (c.onTcb fun tcb => { tcb with snd := { tcb.snd with nxt := pcb.recvAck } }).tcpSendCtrlPkt
      { rst := true }
  else
    (c.onTcb fun tcb =>
      { tcb with rcv := { tcb.rcv with nxt := pcb.sentSeq + pcb.l5Len } }).tcpSendCtrlPkt
      { ack := true, rst := true }

/-- `tsm_SF_listen()` with a segment, as far as the listening control block is concerned. -/
def listenSegment (c : Tsm) : Tsm :=
  if !pcb.flags.rst && pcb.flags.ack then
    c.tcpSendCtrlPkt { ack := true, rst := true }
  else
    c

/--
`tsm_SF_listen()` with a SYN, as far as the clone of the listening control block is
concerned; data on the SYN is not queued.
-/
def listenClone (listener : Tcb) : Tsm :=
  let c := Tsm.start (synReceived pcb { listener with inHtable := true })
  let c := c.onTcb fun tcb =>
    { tcb with snd := { tcb.snd with una := tcb.snd.iss, nxt := tcb.snd.iss + 1 } }
  enterSynRecv env.cfg (c.tcpSendCtrlPktUseIss { syn := true, ack := true })

end Segments

section Timeouts

variable (env : TsmEnv)

/-- `TCP_TOO_MANY_RETRIES()`: the counter has the value of the limit. -/
def tcpTooManyRetries (tcb : Tcb) (limit : BitVec 8) : Bool :=
  decide (tcb.retransCnt = limit)

/-- Resend the FIN that got the connection into its state. -/
def resendFin (c : Tsm) : Tsm :=
  c.tcpSendCtrlPktWithSseq (c.tcb.snd.nxt - 1) { fin := true, ack := true }

/-- The retransmission timeout of the states that resend a control packet or the data. -/
def retransOrClose (limit : BitVec 8) (giveUp resend : Tsm → Tsm) (c : Tsm) : Tsm :=
  if tcpTooManyRetries c.tcb limit then
    giveUp c
  else
    (resend c).onTcb (tsmScheduleRetransmission env.cfg)

/-- `TE_RETRANSMISSION_TIMEOUT` in every state. -/
def tsmRetransmissionTimeout (c : Tsm) : Tsm :=
  match c.tcb.state with
  | .synSent =>
      retransOrClose env env.cfg.sockopt.tcpoSynRetryCnt notifyAndClose
        (·.tcpSendCtrlPktUseIss { syn := true }) c
  | .synRecv =>
      retransOrClose env env.cfg.sockopt.tcpoSynAckRetryCnt notifyAndClose
        (·.tcpSendCtrlPktUseIss { syn := true, ack := true }) c
  | .established =>
      retransOrClose env env.cfg.sockopt.tcpoDataRetryCnt notifyAndClose (tsmRetransData env) c
  | .finWaitI =>
      retransOrClose env env.cfg.sockopt.tcpoRetryCnt
        (fun c => enterClosed (c.onTcb tcpTimerSlowCancel)) resendFin c
  | .lastAck | .closing =>
      retransOrClose env env.cfg.sockopt.tcpoRetryCnt enterClosed resendFin c
  | .closeWait =>
      -- the timer is not started again here
      if tcpTooManyRetries c.tcb env.cfg.sockopt.tcpoRetryCnt then
        enterClosed c
      else
        resendFin (tsmRetransData env c)
  | .init | .listen | .finWaitII | .timeWait | .closed => c

end Timeouts

section Dispatch

variable (env : TsmEnv)

/-- `TE_OPEN` in every state. -/
def tsmOpen (c : Tsm) : Tsm :=
  match c.tcb.state with
  | .init =>
      if c.tcb.active then
        let c := c.onTcb fun tcb =>
          { tcb with snd := { tcb.snd with una := tcb.snd.iss, nxt := tcb.snd.iss + 1 } }
        enterSynSent env.cfg (c.tcpSendCtrlPktUseIss { syn := true })
      else
        enterListen c
  | .closed => c.fail .enotconn
  | .finWaitI | .finWaitII | .lastAck | .closing | .timeWait => c.fail .enotconn
  | .listen | .synSent | .synRecv | .established | .closeWait => c

/-- `TE_SEGMENT_ARRIVES` in every state. -/
def tsmSegmentArrives (pcb : Pcb) (c : Tsm) : Tsm :=
  match c.tcb.state with
  | .init => c
  | .listen => listenSegment pcb c
  | .synSent => synSentSegment env pcb c
  | .synRecv => synRecvSegment env pcb c
  | .established => estabSegment env pcb c
  | .finWaitI => finWaitISegment env pcb c
  | .finWaitII => finWaitIISegment env pcb c
  | .lastAck => lastAckSegment pcb c
  | .closing => closingSegment env pcb c
  | .timeWait => timeWaitSegment env pcb c
  | .closeWait => closeWaitSegment pcb c
  | .closed => closedSegment pcb c

/-- A timeout that closes the connection in one state and is ignored in the others. -/
def closeIn (s : TcpState) (c : Tsm) : Tsm :=
  if c.tcb.state = s then enterClosed c else c

/-- `tsm_dispatch_event()`. -/
def tsmDispatchEvent (event : TcpEvent) (c : Tsm) : Tsm :=
  match event with
  | .open => tsmOpen env c
  | .send data => tsmSend env c data
  | .close => tsmClose env.cfg c
  | .segmentArrives pcb => tsmSegmentArrives env pcb c
  | .retransmissionTimeout => tsmRetransmissionTimeout env c
  | .orphanTimeout => closeIn .finWaitI c
  | .finTimeout => closeIn .finWaitII c
  | .timeWaitTimeout => closeIn .timeWait c

end Dispatch

section Callers

variable (env : TsmEnv)

/-- `tsm_initialize_statemachine()`. -/
def tsmInitializeStatemachine (active : Bool) (c : Tsm) : Tsm :=
  setState .init (c.onTcb fun tcb =>
    { tcb with
      state := .init
      active := active
      finRcvd := false
      rstRcvd := false
      rcvFinSeq := 0
      snd := { una := 0, nxt := 0, wnd := 0, wl1 := 0, wl2 := 0, iss := 0 }
      rcv := { nxt := 0, wnd := env.cfg.sockopt.tcpoWinSize, up := 0, irs := 0 }
      retransCnt := 0
      retrans := { dataMbufs := [], lastMbuf := none, totalSize := 0 }
      rcvBuf := [] })

/-- `tcp_open_v4_connection()`; adding a control block to the lookup table does not fail. -/
def tcpOpenV4Connection (active : Bool) (c : Tsm) : Tsm :=
  tsmOpen env ((tsmInitializeStatemachine env active c).onTcb
    fun tcb => { tcb with inHtable := true })

/-- `tcp_handle_retrans_to()`. -/
def tcpHandleRetransTo (c : Tsm) : Tsm :=
  tsmRetransmissionTimeout env (c.onTcb fun tcb =>
    { tcb with onRtoList := false, retransCnt := tcb.retransCnt + 1 })

/-- `tcp_handle_slow_to()`: the event depends on the state. -/
def tcpHandleSlowTo (c : Tsm) : Tsm :=
  let c := c.onTcb fun tcb => { tcb with onSlowList := false }
  match c.tcb.state with
  | .finWaitI => tsmDispatchEvent env .orphanTimeout c
  | .finWaitII => tsmDispatchEvent env .finTimeout c
  | .timeWait => tsmDispatchEvent env .timeWaitTimeout c
  | .init | .listen | .synSent | .synRecv | .established | .lastAck | .closing | .closeWait
  | .closed => c

end Callers

end TcpStateMachine
end Warp17
