import Warp17.ControlBlock

/-!
# Retransmission queue

The bytes that the application has handed over and the peer has not acknowledged are kept
in one mbuf chain, `tr_data_mbufs`, together with the bytes that were not sent yet.  This
module holds the sending half of `tpg_tcp_data.c`, the acknowledgement clean-up of
`tpg_tcp_sm.c` and the timers that both start and stop.

**Algorithm**
- `tcpDataSend` appends to the chain, finds the first unsent byte by its distance from
  `SND.UNA`, and sends at most `TCB_SEGS_PER_SEND + 1` segments from there;
- `tcpDataRetrans` runs the same loop from `SND.UNA`;
- the loop moves `SND.NXT` only for a segment that starts exactly there;
- `tsmCleanupRetransQueu` drops what an acknowledgement covers.
-/

namespace Warp17
namespace SendQueue

open SequenceComparison MbufChains ControlBlock

/-- `TCB_SEGS_PER_SEND`. -/
def tcbSegsPerSend : Nat :=
  1

/-- `TCB_AVAIL_SEND(tcb)`. -/
def tcbAvailSend (cfg : TcpConfig) (tcb : Tcb) : U32 :=
  let room := cfg.sockopt.tcpoWinSize - tcb.retrans.totalSize
  let burst := BitVec.ofNat 32 (tcbSegsPerSend * cfg.mtu)
  if room < burst then room else burst

/-- `TCB_PSH_THRESH(tcb)`. -/
def tcbPshThresh (cfg : TcpConfig) : U32 :=
  BitVec.ofNat 32 cfg.mtu

/-- `tcp_snd_win_full()`. -/
def tcpSndWinFull (tcb : Tcb) : Bool :=
  decide (tcb.snd.wnd = segDIFF tcb.snd.nxt tcb.snd.una)

/-- `tsm_data_arg_t`, with `tda_data_len` the `pkt_len` the chain had when it was handed over. -/
structure TsmDataArg where
  tdaMbuf : Chain
  tdaPush : Bool
  tdaUrg : Bool
deriving DecidableEq, Repr

/-- Set `next` of the mbuf that the tail pointer names. -/
def linkAfter (last : Nat) (new : Chain) : Chain → Chain
  | [] => []
  | m :: rest => if m.id = last then m :: new else m :: linkAfter last new rest

/-- Set `pkt_len` of the first mbuf. -/
def setHeadPktLen (len : U32) : Chain → Chain
  | [] => []
  | m :: rest => { m with pktLen := len } :: rest

/-- Add to `nb_segs` of the first mbuf. -/
def addHeadNbSegs (n : BitVec 16) : Chain → Chain
  | [] => []
  | m :: rest => { m with nbSegs := m.nbSegs + n } :: rest

/-- `nb_segs` of the first mbuf. -/
def chainNbSegs : Chain → BitVec 16
  | [] => 0
  | m :: _ => m.nbSegs

/-- The queue with `data` linked behind its last mbuf, or `data` when there is none. -/
def linkData (r : TcbRetrans) (data : Chain) : Chain :=
  match r.lastMbuf with
  | some last => addHeadNbSegs (chainNbSegs data) (linkAfter last data r.dataMbufs)
  | none => data

/-- `tcp_data_store_send()`: the control block and the number of bytes stored. -/
def tcpDataStoreSend (cfg : TcpConfig) (tcb : Tcb) (data : Chain) : Tcb × U32 :=
  if tcbAvailSend cfg tcb < chainPktLen data then
    (tcb, 0)
  else
    let total := tcb.retrans.totalSize + chainPktLen data
    -- an empty queue makes the new chain the head, whose length is then overwritten
    let stored :=
      match tcb.retrans.lastMbuf with
      | some _ => chainPktLen data
      | none => total
    ({ tcb with
        retrans :=
          { dataMbufs := setHeadPktLen total (linkData tcb.retrans data)
            lastMbuf := rtePktmbufLastseg data
            totalSize := total } }, stored)

/-- `tcp_data_get_unsent_size()`. -/
def tcpDataGetUnsentSize (tcb : Tcb) : U32 :=
  if tcb.retrans.totalSize = 0 then
    0
  else
    tcb.retrans.totalSize - segDIFF tcb.snd.nxt tcb.snd.una

/-- `tcp_data_get_unsent()`: the rest of the chain and the offset into its first mbuf.  Where more
is in flight than the queue holds the code follows the null pointer at the end of the chain; here
that is an empty rest. -/
def tcpDataGetUnsent (tcb : Tcb) : Chain × Nat :=
  seekOffset tcb.retrans.dataMbufs
    (tcb.retrans.totalSize - tcpDataGetUnsentSize tcb).toNat

/-- `tcp_data_send_segment()` for the `i`-th segment of a call; `none` is failure. -/
def tcpDataSendSegment (env : TsmEnv) (i : Nat) (c : Tsm) (segs : Chain)
    (segDataLen dataOffset : Nat) (sseq : U32) (flags : TcpFlags) : Option Tsm :=
  match dataCloneSeg segs segDataLen dataOffset with
  | none => none
  | some bytes =>
      if env.sendOk i then
        some (c.emit (.pkt
          { seq := sseq
            ack := c.tcb.rcv.nxt
            flags := flags
            wnd := c.tcb.rcv.wnd.truncate 16
            data := bytes }))
      else
        none

/-- The loop that moves past the mbufs a segment covered, with what is left of its length. -/
def advanceSegs : Chain → Nat → Nat → Chain × Nat × Nat
  | [], off, len => ([], off + len, len)
  | m :: rest, off, len =>
      if m.data.length < off + len then
        advanceSegs rest 0 (len - (m.data.length - off))
      else
        (m :: rest, off + len, len)

/-- Move `SND.NXT` over a segment that was sent from it. -/
def advanceNxt (c : Tsm) (sseq : U32) (segDataLen : Nat) : Tsm :=
  if sseq = c.tcb.snd.nxt then
    { c with
      tcb := { c.tcb with
        snd := { c.tcb.snd with nxt := c.tcb.snd.nxt + BitVec.ofNat 32 segDataLen } } }
  else
    c

/--
The loop of `tcp_data_send_segments()`, with `fuel` segments left of those that
`sent_segs <= TCB_SEGS_PER_SEND` allows; the second component is `sent_data`.
-/
def sendSegmentsLoop (env : TsmEnv) (flags : TcpFlags) :
    Nat → Nat → Tsm → Chain → Nat → Nat → U32 → Tsm × U32
  | 0, _, c, _, _, _, _ => (c, 0)
  | fuel + 1, i, c, segs, dataLen, dataOffset, sseq =>
      if dataLen = 0 then
        (c, 0)
      else
        let segDataLen := min dataLen env.cfg.mtu
        match tcpDataSendSegment env i c segs segDataLen dataOffset sseq flags with
        | none => (c, 0)
        | some c' =>
            let next := advanceSegs segs dataOffset segDataLen
            let r := sendSegmentsLoop env flags fuel (i + 1) (advanceNxt c' sseq segDataLen)
              next.1 (dataLen - segDataLen) next.2.1 (sseq + BitVec.ofNat 32 segDataLen)
            (r.1, BitVec.ofNat 32 next.2.2 + r.2)

/-- `tcp_data_send_segments()`. -/
def tcpDataSendSegments (env : TsmEnv) (c : Tsm) (segs : Chain) (dataLen dataOffset : Nat)
    (sseq : U32) (flags : TcpFlags) : Tsm × U32 :=
  sendSegmentsLoop env flags (tcbSegsPerSend + 1) 0 c segs dataLen dataOffset sseq

/-- The bytes that may be sent: the unsent ones that the window has room for. -/
def sendableSize (tcb : Tcb) : U32 :=
  let unsent := tcpDataGetUnsentSize tcb
  let room := segDIFF tcb.snd.wnd (segDIFF tcb.snd.nxt tcb.snd.una)
  if unsent < room then unsent else room

/-- The flags of the segments of a send. -/
def sendFlags (data : TsmDataArg) : TcpFlags :=
  { ack := true, psh := data.tdaPush, urg := data.tdaUrg }

/-- `tcp_data_send()`. -/
def tcpDataSend (env : TsmEnv) (c : Tsm) (data : TsmDataArg) : Tsm :=
  let (tcb, stored) := tcpDataStoreSend env.cfg c.tcb data.tdaMbuf
  let c := { c with tcb := tcb, dataSent := 0 }
  if stored = 0 then
    c.fail .enomem
  else
    let c :=
      if !data.tdaPush && decide (tcpDataGetUnsentSize tcb < tcbPshThresh env.cfg) then
        c
      else
        let (segs, off) := tcpDataGetUnsent tcb
        (tcpDataSendSegments env c segs (sendableSize tcb).toNat off tcb.snd.nxt
          (sendFlags data)).1
    if chainPktLen data.tdaMbuf = stored then
      { c with dataSent := stored }
    else
      c.fail .eagain

/-- The number of bytes `tcp_data_retrans()` may send. -/
def retransSize (tcb : Tcb) : U32 :=
  if tcb.retrans.totalSize < tcb.snd.wnd then tcb.retrans.totalSize else tcb.snd.wnd

/-- `tcp_data_retrans()`. -/
def tcpDataRetrans (env : TsmEnv) (c : Tsm) : Tsm :=
  if c.tcb.retrans.dataMbufs = [] then
    c
  else
    (tcpDataSendSegments env c c.tcb.retrans.dataMbufs (retransSize c.tcb).toNat 0
      c.tcb.snd.una { ack := true }).1

section Timers

/-- `tcp_timer_rto_set()`: fails when the timer is set or its timeout is beyond the wheel. -/
def tcpTimerRtoSet (cfg : TcpConfig) (tcb : Tcb) : Tcb :=
  if tcb.onRtoList then
    tcb
  else if cfg.rtoTmrMax < cfg.sockopt.tcpoRto then
    tcb
  else
    { tcb with onRtoList := true }

/-- `tcp_timer_rto_cancel()`. -/
def tcpTimerRtoCancel (tcb : Tcb) : Tcb :=
  { tcb with onRtoList := false }

/-- `tcp_timer_slow_set()`. -/
def tcpTimerSlowSet (cfg : TcpConfig) (timeout : U32) (tcb : Tcb) : Tcb :=
  if tcb.onSlowList then
    tcb
  else if cfg.slowTmrMax < timeout then
    tcb
  else
    { tcb with onSlowList := true }

/-- `tcp_timer_slow_cancel()`. -/
def tcpTimerSlowCancel (tcb : Tcb) : Tcb :=
  { tcb with onSlowList := false }

end Timers

/-- `tsm_schedule_retransmission()`. -/
def tsmScheduleRetransmission (cfg : TcpConfig) (tcb : Tcb) : Tcb :=
  if tcb.snd.una = tcb.snd.nxt ∧ tcb.retrans.totalSize = 0 then
    { tcb with retransCnt := 0 }
  else if tcb.onRtoList then
    tcb
  else
    tcpTimerRtoSet cfg tcb

/-- Report a send window that the transition has filled. -/
def notifyWinUnavail (winWasFull : Bool) (c : Tsm) : Tsm :=
  if !winWasFull && tcpSndWinFull c.tcb then
    c.tcpNotif .sessWinUnavail
  else
    c

/-- `tsm_send_data()`. -/
def tsmSendData (env : TsmEnv) (c : Tsm) (data : TsmDataArg) : Tsm :=
  notifyWinUnavail (tcpSndWinFull c.tcb)
    ((tcpDataSend env c data).onTcb (tsmScheduleRetransmission env.cfg))

/-- `tsm_retrans_data()`. -/
def tsmRetransData (env : TsmEnv) (c : Tsm) : Tsm :=
  notifyWinUnavail (tcpSndWinFull c.tcb) (tcpDataRetrans env c)

/--
The loop of `tsm_cleanup_retrans_queu()` over the mbufs that are acknowledged as a whole;
`len` is the `pkt_len` of the mbuf at the head.
-/
def dropAcked : Chain → U32 → Nat → Chain × Nat
  | [], _, acked => ([], acked)
  | m :: rest, len, acked =>
      if 0 < acked ∧ m.data.length ≤ acked then
        dropAcked rest (len - BitVec.ofNat 32 m.data.length) (acked - m.data.length)
      else
        ({ m with pktLen := len } :: rest, acked)

/-- Drop a first mbuf without data. -/
def dropEmptyHead : Chain → Chain
  | [] => []
  | m :: rest => if m.data = [] then rest else m :: rest

/-- What is left of the chain when the first `acked` bytes are acknowledged. -/
def ackedChain (c : Chain) (acked : Nat) : Chain :=
  let (rest, left) := dropAcked c (chainPktLen c) acked
  dropEmptyHead (if left = 0 then rest else dataAdjChain rest (BitVec.ofNat 32 left))

/-- The control block after `tsm_cleanup_retrans_queu()` has dropped `acked` bytes. -/
def cleanedTcb (tcb : Tcb) (segAck acked : U32) : Tcb :=
  let mbufs := ackedChain tcb.retrans.dataMbufs acked.toNat
  { tcb with
    retrans :=
      { dataMbufs := mbufs
        lastMbuf := if mbufs = [] then none else tcb.retrans.lastMbuf
        totalSize := tcb.retrans.totalSize - acked }
    -- everything in the queue was acknowledged: the timer is cancelled
    onRtoList := if mbufs = [] then false else tcb.onRtoList
    snd := { tcb.snd with una := segAck }
    retransCnt := 0 }

/-- `tsm_cleanup_retrans_queu()`. -/
def tsmCleanupRetransQueu (c : Tsm) (segAck : U32) : Tsm :=
  let acked := segDIFF segAck c.tcb.snd.una
  if acked = 0 then
    c
  else if c.tcb.retrans.totalSize < acked then
    c
  else
    let c' := c.onTcb (cleanedTcb · segAck acked)
    if tcpSndWinFull c.tcb && !tcpSndWinFull c'.tcb then
      c'.tcpNotif .sessWinAvail
    else
      c'

end SendQueue
end Warp17
