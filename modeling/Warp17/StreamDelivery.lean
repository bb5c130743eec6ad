import Warp17.StreamTransfer

/-!
# Bytes are kept until they are consumed

The sending half of a connection drops the bytes that are acknowledged.  Here the numbers that
the two ends acknowledge (`AckOf`) are set against the retransmission queue: what has left the
queue of one end was consumed by the application of the other one (`Retained`), whatever the
network does.

One more kind of segment is left out (`Recent`): those whose acknowledgement is from more than
half the sequence space ago.

**Results**
- `ackArrived_room`: an acknowledgement drops only what was consumed.
- `retained_step`: every input of a control block keeps the rest.
- `unconsumed_kept`: what the peer has not consumed is in the queue, with the timer running.
- `fin_acknowledged`: the end of the stream is acknowledged when all of it was consumed.
-/

namespace Warp17
namespace StreamDelivery

open GuardedRuns SerialArithmetic SequenceComparison MbufChains ControlBlock SendQueue
open RetransmissionQueue TcpStateMachine TransitionPaths ConnectionRuns SendInvariants
open SendSequence SessionTimers SentStream FinAfterData ReceivePaths StreamReading
open StreamTransfer

/--
The queue holds what the peer has not consumed, and is empty when the whole stream was
acknowledged.
-/
def Retained (accepted consumed : List UInt8) (tcb : Tcb) : Prop :=
  tcb.inHtable = true →
    accepted.length ≤ consumed.length + (queued tcb).length ∧
      (tcb.state = .timeWait → queued tcb = [])

/-- The acknowledgement is from less than half the sequence space ago. -/
def Recent (accepted consumed : List UInt8) (ack : U32) : Prop :=
  ∀ m ≤ consumed.length + 2, ack = seqAt 0 m → accepted.length < m + 2 ^ 31

section Queue

variable {cfg : TcpConfig} {h : History} {accepted consumed consumed' : List UInt8} {c : Tsm}
  {tcb tcb' : Tcb} {pcb : Pcb}

theorem retained_dead
    (hdead : tcb.inHtable = false) :
    Retained accepted consumed tcb := by
  intro hlive
  rw [hdead] at hlive
  cases hlive

theorem retained_closed
    (c : Tsm) :
    Retained accepted consumed (tcpSilentClose c).tcb :=
  retained_dead (tcpSilentClose_dead c).1

/-- Outside of `TS_TIME_WAIT` only the length of the queue matters. -/
theorem retained_of
    (hroom : accepted.length ≤ consumed.length + (queued tcb).length)
    (hretrans : tcb'.retrans = tcb.retrans)
    (hstate : tcb'.state ≠ .timeWait) :
    Retained accepted consumed tcb' := by
  refine fun _ => ⟨?_, fun htime => absurd htime hstate⟩
  rw [queued, hretrans]
  exact hroom

theorem Retained.of_eq
    (h : Retained accepted consumed tcb)
    (hhtable : tcb'.inHtable = tcb.inHtable)
    (hstate : tcb'.state = tcb.state)
    (hretrans : tcb'.retrans = tcb.retrans) :
    Retained accepted consumed tcb' := by
  intro hlive
  rw [hstate, queued, hretrans]
  exact h (hhtable.symm.trans hlive)

theorem Retained.same
    (h : Retained accepted consumed tcb)
    (hsame : SameSend tcb tcb') :
    Retained accepted consumed tcb' :=
  h.of_eq hsame.inHtable hsame.state hsame.retrans

/-- Nothing more has to be kept when the peer consumes more. -/
theorem Retained.consumes
    (h : Retained accepted consumed tcb)
    (hmore : consumed <+: consumed') :
    Retained accepted consumed' tcb := by
  intro hlive
  have hle := hmore.length_le
  obtain ⟨hroom, htime⟩ := h hlive
  exact ⟨by omega, htime⟩

/--
An acknowledgement drops only what was consumed.  The position that `SND.UNA` is moved to is
the one that the peer has named, since both are near the end of the stream.
-/
theorem ackArrived_room
    (finSent : Bool)
    (hcfg : ConfigOk cfg)
    (hqueue : QueueOk cfg.sockopt.tcpoWinSize.toNat c.tcb.retrans)
    (hiss : c.tcb.snd.iss = 0)
    (hdrained : Drained h.accepted c.tcb)
    (hroom : h.accepted.length ≤ consumed.length + (queued c.tcb).length)
    (hpre : consumed <+: h.accepted)
    (hack : AckOf h consumed pcb.recvAck)
    (hrecent : Recent h.accepted consumed pcb.recvAck) :
    h.accepted.length ≤ consumed.length + (queued (ackArrived pcb finSent c).tcb).length := by
  rcases ackArrived_spec pcb finSent hcfg hqueue with heq | ⟨segAck, hacc⟩
  · rw [heq]
    exact hroom
  rcases hdrained with hpos | ⟨hidle, -⟩
  · have hw := hcfg.winSize
    obtain ⟨d, hd, hbytes, huna⟩ := hpos.ackArrived pcb finSent hcfg hqueue
    have hlen : h.accepted.length = d + (queued (ackArrived pcb finSent c).tcb).length := by
      rw [hbytes, List.length_drop]
      omega
    have hbound : (queued (ackArrived pcb finSent c).tcb).length ≤ cfg.sockopt.tcpoWinSize.toNat :=
      hacc.clean.cleaned.queue.bounded
    have hle := hpre.length_le
    rw [hacc.clean.cleaned.snd] at huna
    simp only [hiss] at huna
    obtain ⟨m, hm, hmax⟩ := hack
    have hnear := hrecent m (by omega) hm
    rcases hacc.ack with ⟨rfl, -⟩ | ⟨rfl, -, -⟩
    · have hsame : seqAt (0 : U32) m = seqAt 0 (d + 1) := by
        rw [← hm, huna]
        exact seqAt_one d
      rw [seqAt_inj_of_near 0 (by omega) (by omega)] at hsame
      rcases hmax with hmax | ⟨hmax, -, hall⟩
      · omega
      · have hall' := congrArg List.length hall
        omega
    · have hsame : seqAt (0 : U32) m = seqAt 0 (d + 2) := by
        have hnext : pcb.recvAck = seqAt 1 d + 1 := by
          rw [← sub_eq_iff_eq_add]
          exact huna
        rw [← hm, hnext, seqAt_one]
        exact seqAt_add 0 (d + 1) 1
      rw [seqAt_inj_of_near 0 (by omega) (by omega)] at hsame
      rcases hmax with hmax | ⟨hmax, -, hall⟩ <;> omega
  · -- nothing is in flight
    rw [ackArrived_idle pcb finSent hcfg hqueue hidle]
    exact hroom

/-- When nothing but our FIN can be in flight, the queue is empty. -/
theorem queued_nil
    {winSize : Nat}
    (hqueue : QueueOk winSize tcb.retrans)
    (hwin : winSize < 2 ^ 16)
    (hdrained : Drained accepted tcb)
    (hnxt : tcb.snd.nxt = seqAt (tcb.snd.iss + 1) accepted.length + 1)
    (hflight : flight tcb ≤ 1) :
    queued tcb = [] := by
  rcases hdrained with hpos | ⟨-, hempty⟩
  · have hb : (queued tcb).length ≤ winSize := hqueue.bounded
    have hsub : tcb.snd.nxt - tcb.snd.una = BitVec.ofNat 32 ((queued tcb).length + 1) := by
      rw [hnxt, ← Positioned.end_eq hpos, BitVec.ofNat_add]
      abel
    rw [flight, hsub, BitVec.toNat_ofNat, Nat.mod_eq_of_lt (by omega)] at hflight
    exact List.length_eq_zero_iff.1 (by omega)
  · exact hempty

/-- The queue does not grow by an acknowledgement. -/
theorem acked_nil
    (pcb : Pcb) (finSent : Bool)
    (hcfg : ConfigOk cfg)
    (hqueue : QueueOk cfg.sockopt.tcpoWinSize.toNat c.tcb.retrans)
    (hnil : queued c.tcb = []) :
    queued (acked pcb finSent c).tcb = [] := by
  rw [queued, (acked_fields pcb finSent c).2.2.1]
  rcases ackArrived_spec pcb finSent hcfg hqueue with heq | ⟨segAck, hacc⟩
  · rw [heq]
    exact hnil
  · refine hacc.clean.cleaned.bytes.trans ?_
    rw [hnil, List.drop_nil]

/-- The ACK of our FIN finds the queue empty. -/
theorem acked_fin_nil
    (pcb : Pcb)
    (hcfg : ConfigOk cfg)
    (hqueue : QueueOk cfg.sockopt.tcpoWinSize.toNat c.tcb.retrans)
    (hdrained : Drained accepted c.tcb)
    (hnxt : c.tcb.snd.nxt = seqAt (c.tcb.snd.iss + 1) accepted.length + 1)
    (hours : ourFinAcked pcb (acked pcb true c).tcb = true) :
    queued (acked pcb true c).tcb = [] := by
  have hflight := (ourFinAcked_flight hours).1
  rcases ackArrived_spec pcb true hcfg hqueue with heq | ⟨segAck, hacc⟩
  · have hsame : (acked pcb true c).tcb.retrans = c.tcb.retrans := by
      rw [(acked_fields pcb true c).2.2.1, heq]
    have hflight' : flight c.tcb ≤ 1 := by
      obtain ⟨huna, hnxt', -⟩ := acked_fields pcb true c
      rw [flight, huna, hnxt', heq] at hflight
      exact hflight.le
    rw [queued, hsame]
    exact queued_nil hqueue hcfg.winSize hdrained hnxt hflight'
  · have hafter := hdrained.acked pcb true hcfg hqueue
    refine queued_nil ?_ hcfg.winSize hafter ?_ hflight.le
    · rw [(acked_fields pcb true c).2.2.1]
      exact hacc.clean.cleaned.queue
    · rw [(acked_fields pcb true c).2.1, ackArrived_nxt, (aside_acked pcb true c).iss]
      exact hnxt

/-- In `TS_FIN_WAIT_II` nothing is left to be acknowledged. -/
theorem finWaitII_nil
    (hcfg : ConfigOk cfg)
    (hinv : FinInv cfg h)
    (hlive : h.tcb.inHtable = true)
    (hstate : h.tcb.state = .finWaitII) :
    queued h.tcb = [] := by
  have hafter : AfterFin h.tcb.state := by simp [AfterFin, hstate]
  have hbound := hinv.seq.send.bound hlive
  rw [hstate] at hbound
  have hflight : flight h.tcb ≤ (queued h.tcb).length + 0 := hbound.flight
  refine queued_nil hbound.queue hcfg.winSize ((hinv.seq.seq hlive).closing hafter)
    (hinv.streamed.closing hlive hafter).1 ?_
  by_cases hbusy : h.tcb.snd.una = h.tcb.snd.nxt
  · rw [flight_eq_zero.2 hbusy]
    omega
  · have heq := (hinv.flight_closing hcfg hlive hafter hbusy).1
    omega

theorem retained_enterTimeWait
    (hroom : accepted.length ≤ consumed.length + (queued c.tcb).length)
    (hnil : queued c.tcb = []) :
    Retained accepted consumed (enterTimeWait cfg c).tcb := by
  unfold enterTimeWait
  simp only
  split
  · exact retained_closed _
  · rw [onTcb_tcb, tcpTimerSlowSet_eq]
    exact fun _ => ⟨hroom, fun _ => hnil⟩

end Queue

section Steps

variable {cfg : TcpConfig} {h : History} {accepted consumed : List UInt8} {c : Tsm} {i : ConnInput}
  {pcb : Pcb}

/-- Without data there is nothing to keep. -/
theorem retained_of_numbered
    {tcb : Tcb}
    (hnum : Numbered [] tcb) :
    Retained [] consumed tcb := by
  refine fun hlive => ⟨Nat.zero_le _, fun htime => ?_⟩
  rcases (hnum hlive).closing (by simp [AfterFin, htime]) with ⟨d, -, hqueue, -⟩ | ⟨-, hempty⟩
  · rw [hqueue, List.drop_nil]
  · exact hempty

theorem estab_retained
    (env : TsmEnv)
    (hcfg : ConfigOk env.cfg)
    (hat : At env.cfg .established 0 c.tcb)
    (hret : Retained accepted consumed c.tcb)
    (harrived : accepted.length ≤
      consumed.length + (queued (ackArrived pcb false c).tcb).length) :
    Retained accepted consumed (estabSegment env pcb c).tcb := by
  have hroom : accepted.length ≤ consumed.length + (queued (acked pcb false c).tcb).length := by
    rw [queued, (acked_fields pcb false c).2.2.1]
    exact harrived
  have hstate := (hat.acked pcb false hcfg).state
  have htext : ∀ c', TextDone env pcb (acked pcb false c) c' →
      c'.tcb.retrans = (acked pcb false c).tcb.retrans ∧ c'.tcb.state ≠ .timeWait := by
    intro c' hdone
    rcases hdone.of_open (.inl hstate) with hkept | ⟨-, c₁, hbefore, hafter⟩
    · refine ⟨hkept.same.retrans, ?_⟩
      rw [hkept.same.state, hstate]
      decide
    · have hqueue := sameQueue_enterFinWaitI env.cfg (c₁.tcpNotif .sessClosing)
      refine ⟨hafter.same.retrans.trans (hqueue.retrans.trans hbefore.same.retrans), ?_⟩
      rw [hafter.same.state, enterFinWaitI_state]
      decide
  refine estabSegment_elim (P := fun c' => Retained accepted consumed c'.tcb)
    (fun c' hq => hret.same hq.same) (fun c' _ => retained_closed _) (fun _ => ?_)
    (fun _ c' hdone => ?_) fun _ _ c' hdone => ?_
  · refine retained_of harrived rfl ?_
    rw [(hat.ackArrived pcb false hcfg).state]
    decide
  · exact retained_of hroom (htext c' hdone).1 (htext c' hdone).2
  · have hqueue := sameQueue_enterCloseWait env.cfg (c'.tcpNotif .sessClosing)
    refine retained_of hroom (hqueue.retrans.trans (htext c' hdone).1) ?_
    rw [enterCloseWait_state]
    decide

theorem finWaitI_retained
    (env : TsmEnv)
    (hcfg : ConfigOk env.cfg)
    (hat : At env.cfg .finWaitI 1 c.tcb)
    (hdrained : Drained accepted c.tcb)
    (hnxt : c.tcb.snd.nxt = seqAt (c.tcb.snd.iss + 1) accepted.length + 1)
    (hret : Retained accepted consumed c.tcb)
    (harrived : accepted.length ≤
      consumed.length + (queued (ackArrived pcb true c).tcb).length) :
    Retained accepted consumed (finWaitISegment env pcb c).tcb := by
  have hacked := hat.acked pcb true hcfg
  have hroom : accepted.length ≤ consumed.length + (queued (acked pcb true c).tcb).length := by
    rw [queued, (acked_fields pcb true c).2.2.1]
    exact harrived
  -- the ACK of our FIN finds the queue empty
  have hours : ourFinAcked pcb (acked pcb true c).tcb = true →
      queued (acked pcb true c).tcb = [] :=
    fun hours => acked_fin_nil pcb hcfg hat.bound.queue hdrained hnxt hours
  refine finWaitISegment_elim (P := fun c' => Retained accepted consumed c'.tcb) hacked.state
    (fun c' hq => hret.same hq.same) (fun c' _ => retained_closed _) (fun _ => ?_)
    (fun _ _ c' hq => ?_) (fun _ _ _ c' hq => ?_) (fun _ hyes _ c' hq => ?_)
    (fun _ hyes c' hq => ?_) fun _ hyes c' hq => ?_
  · refine retained_of harrived rfl ?_
    rw [(hat.ackArrived pcb true hcfg).state]
    decide
  · refine retained_of hroom hq.same.retrans ?_
    rw [hq.same.state, hacked.state]
    decide
  · refine retained_of hroom ?_ ?_
    · rw [enterClosing, onTcb_tcb, tsmScheduleRetransmission_eq]
      exact hq.same.retrans
    · rw [enterClosing_state]
      decide
  · refine retained_of hroom hq.same.retrans ?_
    rw [hq.same.state]
    change (acked pcb true c).tcb.state ≠ _
    rw [hacked.state]
    decide
  · refine retained_of hroom ?_ ?_
    · rw [enterFinWaitII, onTcb_tcb, tcpTimerSlowSet_eq]
      exact hq.same.retrans
    · rw [enterFinWaitII_state]
      decide
  · have hqueue : queued (c'.onTcb tcpTimerSlowCancel).tcb = queued (acked pcb true c).tcb :=
      congrArg (fun r : TcbRetrans => chainBytes r.dataMbufs) hq.same.retrans
    exact retained_enterTimeWait (hqueue ▸ hroom) (hqueue.trans (hours hyes))

theorem finWaitII_retained
    (env : TsmEnv)
    (hcfg : ConfigOk env.cfg)
    (hat : At env.cfg .finWaitII 0 c.tcb)
    (hnil : queued c.tcb = [])
    (hret : Retained accepted consumed c.tcb)
    (harrived : accepted.length ≤
      consumed.length + (queued (ackArrived pcb false c).tcb).length) :
    Retained accepted consumed (finWaitIISegment env pcb c).tcb := by
  have hacked := hat.acked pcb false hcfg
  have hroom : accepted.length ≤ consumed.length + (queued (acked pcb false c).tcb).length := by
    rw [queued, (acked_fields pcb false c).2.2.1]
    exact harrived
  refine finWaitIISegment_elim (P := fun c' => Retained accepted consumed c'.tcb) hacked.state
    (fun c' hq => hret.same hq.same) (fun c' _ => retained_closed _) (fun _ => ?_)
    (fun _ c' hq => ?_) fun _ c' hq c'' hq' => ?_
  · refine retained_of harrived rfl ?_
    rw [(hat.ackArrived pcb false hcfg).state]
    decide
  · refine retained_of hroom hq.same.retrans ?_
    rw [hq.same.state, hacked.state]
    decide
  · have hqueue : queued c''.tcb = queued (acked pcb false c).tcb :=
      congrArg (fun r : TcbRetrans => chainBytes r.dataMbufs)
        (hq'.same.retrans.trans hq.same.retrans)
    exact retained_enterTimeWait (hqueue ▸ hroom)
      (hqueue.trans (acked_nil pcb false hcfg hat.bound.queue hnil))

theorem closing_retained
    (env : TsmEnv)
    (hcfg : ConfigOk env.cfg)
    (hat : At env.cfg .closing 1 c.tcb)
    (hdrained : Drained accepted c.tcb)
    (hnxt : c.tcb.snd.nxt = seqAt (c.tcb.snd.iss + 1) accepted.length + 1)
    (hret : Retained accepted consumed c.tcb)
    (harrived : accepted.length ≤
      consumed.length + (queued (ackArrived pcb true c).tcb).length) :
    Retained accepted consumed (closingSegment env pcb c).tcb := by
  have hroom : accepted.length ≤ consumed.length + (queued (acked pcb true c).tcb).length := by
    rw [queued, (acked_fields pcb true c).2.2.1]
    exact harrived
  refine closingSegment_elim (P := fun c' => Retained accepted consumed c'.tcb)
    (fun c' hq => hret.same hq.same) (fun c' _ => retained_closed _) (fun _ => ?_)
    (fun _ _ => ?_) fun _ hyes => ?_
  · refine retained_of harrived rfl ?_
    rw [(hat.ackArrived pcb true hcfg).state]
    decide
  · refine retained_of hroom rfl ?_
    rw [(hat.acked pcb true hcfg).state]
    decide
  · exact retained_enterTimeWait hroom
      (acked_fin_nil pcb hcfg hat.bound.queue hdrained hnxt hyes)

/-- A send appends to the queue what it takes. -/
theorem tsmSend_retained
    {data : TsmDataArg}
    (env : TsmEnv)
    (hcfg : ConfigOk env.cfg)
    (hinv : SendInv env.cfg finOnly c.tcb)
    (hlive : c.tcb.inHtable = true)
    (hdata : SendChainOk c.tcb data.tdaMbuf)
    (hnone : c.dataSent = 0)
    (hret : Retained accepted consumed c.tcb) :
    Retained (accepted ++ (chainBytes data.tdaMbuf).take (tsmSend env c data).dataSent.toNat)
      consumed (tsmSend env c data).tcb := by
  have hqueue := (hinv.bound hlive).queue
  have hrefused : Retained
      (accepted ++ (chainBytes data.tdaMbuf).take (c.fail .enotconn).dataSent.toNat)
      consumed (c.fail .enotconn).tcb := by
    have hzero : (c.fail .enotconn).dataSent.toNat = 0 := congrArg BitVec.toNat hnone
    rw [hzero, List.take_zero, List.append_nil]
    exact hret
  cases hstate : c.tcb.state with
  | established =>
      have hrun : tsmSend env c data = tsmSendData env c data := by
        simp only [tsmSend, hstate]
      have hsent : (tsmSendData env c data).dataSent = (tcpDataSend env c data).dataSent := by
        unfold tsmSendData notifyWinUnavail
        split <;> rfl
      have hsame : (tsmSendData env c data).tcb.retrans = (tcpDataSend env c data).tcb.retrans ∧
          (tsmSendData env c data).tcb.state = (tcpDataSend env c data).tcb.state := by
        rw [tsmSendData, notifyWinUnavail_tcb, onTcb_tcb, tsmScheduleRetransmission_eq]
        exact ⟨rfl, rfl⟩
      rw [hrun, hsent]
      refine retained_of ?_ hsame.1 ?_
      · have hroom := (hret hlive).1
        rcases tcpDataSend_spec hcfg.mtu hqueue hdata with heq | ⟨tcb', ns, hds⟩
        · have hzero : ((({ c with dataSent := 0 } : Tsm).fail .enomem).dataSent).toNat = 0 := rfl
          rw [heq, hzero, List.take_zero, List.append_nil]
          exact hroom
        · have htake : (BitVec.ofNat 32 (chainBytes data.tdaMbuf).length).toNat =
              (chainBytes data.tdaMbuf).length := by
            rw [BitVec.toNat_ofNat, Nat.mod_eq_of_lt hdata.size]
          rw [hds.result]
          simp only [htake, List.take_length]
          change _ ≤ consumed.length + (queued tcb').length
          rw [hds.stored.bytes, List.length_append, List.length_append]
          omega
      · rw [hsame.2, (tcpDataSend_state hcfg.mtu hqueue hdata).1, hstate]
        decide
  | closeWait =>
      exact absurd hstate (hinv.resting hlive).2.1
  | init | listen | synSent | synRecv | finWaitI | finWaitII | lastAck | closing | timeWait
  | closed =>
      simpa only [tsmSend, hstate] using hrefused

theorem tsmClose_retained
    (hinv : SendInv cfg finOnly c.tcb)
    (hlive : c.tcb.inHtable = true)
    (hret : Retained accepted consumed c.tcb) :
    Retained accepted consumed (tsmClose cfg c).tcb := by
  have hrefused : Retained accepted consumed (c.fail .enotconn).tcb := hret
  have hfin : Retained accepted consumed
      (enterFinWaitI cfg (c.tcpNotif .sessClosing)).tcb := by
    have hqueue := sameQueue_enterFinWaitI cfg (c.tcpNotif .sessClosing)
    refine retained_of (hret hlive).1 hqueue.retrans ?_
    rw [enterFinWaitI_state]
    decide
  cases hstate : c.tcb.state with
  | init =>
      exact absurd hstate (hinv.resting hlive).1
  | closeWait =>
      exact absurd hstate (hinv.resting hlive).2.1
  | listen | synSent =>
      simp only [tsmClose, hstate]
      exact retained_closed _
  | synRecv | established =>
      simpa only [tsmClose, hstate] using hfin
  | finWaitI | finWaitII | lastAck | closing | timeWait | closed =>
      simpa only [tsmClose, hstate] using hrefused

theorem rtoTimer_retained
    (env : TsmEnv)
    (hcfg : ConfigOk env.cfg)
    (hinv : SendInv env.cfg finOnly c.tcb)
    (hlive : c.tcb.inHtable = true)
    (hret : Retained accepted consumed c.tcb) :
    Retained accepted consumed (tcpHandleRetransTo env c).tcb := by
  have hw := hcfg.winSize
  have hfired : Retained accepted consumed
      (c.onTcb fun tcb => { tcb with onRtoList := false, retransCnt := tcb.retransCnt + 1 }).tcb :=
    hret.of_eq rfl rfl rfl
  have hretry : ∀ {limit : BitVec 8} {giveUp resend : Tsm → Tsm} {c : Tsm},
      Retained accepted consumed (giveUp c).tcb → Retained accepted consumed (resend c).tcb →
        Retained accepted consumed (retransOrClose env limit giveUp resend c).tcb := by
    intro limit giveUp resend c hgive hresend
    unfold retransOrClose
    split
    · exact hgive
    · rw [onTcb_tcb, tsmScheduleRetransmission_eq]
      exact hresend.of_eq rfl rfl rfl
  unfold tcpHandleRetransTo tsmRetransmissionTimeout
  cases hstate : c.tcb.state with
  | synSent | synRecv | finWaitI | lastAck | closing =>
      simp only [onTcb_tcb, hstate]
      exact hretry (retained_closed _) hfired
  | established =>
      simp only [onTcb_tcb, hstate]
      have hat := hinv.at hlive
      rw [hstate] at hat
      have hat' : At env.cfg .established finOnly.estab
          (c.onTcb fun tcb =>
            { tcb with onRtoList := false, retransCnt := tcb.retransCnt + 1 }).tcb :=
        ⟨hat.live, hat.state, hat.bound.of_eq rfl rfl rfl⟩
      refine hretry (retained_closed _) (retained_of (hret hlive).1
        (sameQueue_retrans hcfg.mtu hat'.bound.queue (by omega)).retrans ?_)
      rw [(tsmRetransData_at hcfg hat').state]
      decide
  | closeWait =>
      exact absurd hstate (hinv.resting hlive).2.1
  | init | listen | finWaitII | timeWait | closed =>
      simpa only [onTcb_tcb, hstate] using hfired

theorem slowTimer_retained
    (env : TsmEnv)
    (hret : Retained accepted consumed c.tcb) :
    Retained accepted consumed (tcpHandleSlowTo env c).tcb := by
  have hfired : Retained accepted consumed
      (c.onTcb fun tcb => { tcb with onSlowList := false }).tcb :=
    hret.of_eq rfl rfl rfl
  have hclose : ∀ s, Retained accepted consumed
      (closeIn s (c.onTcb fun tcb => { tcb with onSlowList := false })).tcb := by
    intro s
    unfold closeIn
    split
    · exact retained_closed _
    · exact hfired
  unfold tcpHandleSlowTo
  simp only
  split
  · exact hclose _
  · exact hclose _
  · exact hclose _
  all_goals exact hfired

/-- A segment, once data was handed over. -/
theorem segment_retained
    (hcfg : ConfigOk cfg)
    (hinv : FinInv cfg h)
    (hiss : h.tcb.snd.iss = 0)
    (hlive : h.tcb.inHtable = true)
    (hdata : h.accepted ≠ [])
    (hret : Retained h.accepted consumed h.tcb)
    (hpre : consumed <+: h.accepted)
    (hack : AckOf h consumed pcb.recvAck)
    (hrecent : Recent h.accepted consumed pcb.recvAck) :
    Retained h.accepted consumed (tsmSegmentArrives (i.env cfg) pcb (Tsm.start h.tcb)).tcb := by
  have hstart : Retained h.accepted consumed (Tsm.start h.tcb).tcb := hret
  have hseq := hinv.seq.seq hlive
  have hat : At cfg h.tcb.state (finOnly.of h.tcb.state) (Tsm.start h.tcb).tcb :=
    hinv.seq.send.at hlive
  have harrived : ∀ finSent, Drained h.accepted h.tcb →
      h.accepted.length ≤
        consumed.length + (queued (ackArrived pcb finSent (Tsm.start h.tcb)).tcb).length :=
    fun finSent hdrained => ackArrived_room finSent hcfg hat.bound.queue hiss hdrained
      (hret hlive).1 hpre hack hrecent
  unfold tsmSegmentArrives
  cases hstate : h.tcb.state with
  | init =>
      exact absurd hstate (hinv.seq.send.resting hlive).1
  | closeWait =>
      exact absurd hstate (hinv.seq.send.resting hlive).2.1
  | closed =>
      exact absurd hstate (hinv.seq.send.resting hlive).2.2
  | listen | synSent | synRecv =>
      exact absurd (hseq.opening (by simp [hstate])).1 hdata
  | established =>
      simp only [Tsm.start, hstate]
      rw [hstate] at hat
      exact estab_retained (i.env cfg) hcfg hat hstart
        (harrived false (.inl (hseq.estab hstate)))
  | finWaitI =>
      simp only [Tsm.start, hstate]
      have hafter : AfterFin h.tcb.state := by simp [AfterFin, hstate]
      rw [hstate] at hat
      exact finWaitI_retained (i.env cfg) hcfg hat (hseq.closing hafter)
        (hinv.streamed.closing hlive hafter).1 hstart (harrived true (hseq.closing hafter))
  | finWaitII =>
      simp only [Tsm.start, hstate]
      have hafter : AfterFin h.tcb.state := by simp [AfterFin, hstate]
      have hnil := finWaitII_nil hcfg hinv hlive hstate
      rw [hstate] at hat
      exact finWaitII_retained (i.env cfg) hcfg hat hnil hstart
        (harrived false (hseq.closing hafter))
  | lastAck =>
      simp only [Tsm.start, hstate]
      exact lastAckSegment_elim (P := fun c' => Retained h.accepted consumed c'.tcb)
        (fun c' hq => hstart.same hq.same) fun c' _ => retained_closed _
  | closing =>
      simp only [Tsm.start, hstate]
      have hafter : AfterFin h.tcb.state := by simp [AfterFin, hstate]
      rw [hstate] at hat
      exact closing_retained (i.env cfg) hcfg hat (hseq.closing hafter)
        (hinv.streamed.closing hlive hafter).1 hstart (harrived true (hseq.closing hafter))
  | timeWait =>
      simp only [Tsm.start, hstate]
      refine timeWaitSegment_elim (P := fun c' => Retained h.accepted consumed c'.tcb)
        (fun c' hq => hstart.same hq.same) (fun c' _ => retained_closed _) fun c' hq => ?_
      rw [onTcb_tcb, Function.comp_apply, tcpTimerSlowSet_eq]
      exact (hstart.same hq.same).of_eq rfl rfl rfl

/-- Every input of a control block keeps what the peer has not consumed. -/
theorem retained_step
    (hcfg : ConfigOk cfg)
    (hinv : FinInv cfg h)
    (hinv' : FinInv cfg (historyStep cfg h i))
    (hiss : h.tcb.snd.iss = 0)
    (hlegal : ConnLegal h.tcb i)
    (hret : Retained h.accepted consumed h.tcb)
    (hpre : consumed <+: h.accepted)
    (hack : ∀ pcb, i.event = .segment pcb →
      AckOf h consumed pcb.recvAck ∧ Recent h.accepted consumed pcb.recvAck) :
    Retained (historyStep cfg h i).accepted consumed (historyStep cfg h i).tcb := by
  have hnum := hinv'.seq.seq
  by_cases hnone : (historyStep cfg h i).accepted = []
  · rw [hnone] at hnum ⊢
    exact retained_of_numbered hnum
  unfold ConnLegal at hlegal
  simp only [historyStep, connStep, takenBytes] at hnone ⊢
  cases hevent : i.event with
  | «open» active | accept syn =>
      simp only [hevent, opens, if_true] at hnone
      exact absurd trivial hnone
  | send data =>
      simp only [hevent, opens, Bool.false_eq_true, if_false] at hlegal ⊢
      exact tsmSend_retained (i.env cfg) hcfg hinv.seq.send hlegal.1 hlegal.2 rfl hret
  | close =>
      simp only [hevent, opens, Bool.false_eq_true, if_false, List.append_nil] at hlegal ⊢
      exact tsmClose_retained hinv.seq.send hlegal hret
  | segment pcb =>
      simp only [hevent, opens, Bool.false_eq_true, if_false, List.append_nil] at hlegal hnone ⊢
      obtain ⟨hof, hrecent⟩ := hack pcb hevent
      exact segment_retained hcfg hinv hiss hlegal hnone hret hpre hof hrecent
  | rtoTimer =>
      simp only [hevent, opens, Bool.false_eq_true, if_false, List.append_nil] at hlegal ⊢
      exact rtoTimer_retained (i.env cfg) hcfg hinv.seq.send
        (hinv.seq.send.live_of_timer (.inl hlegal)) hret
  | slowTimer =>
      simp only [opens, Bool.false_eq_true, if_false, List.append_nil]
      exact slowTimer_retained (i.env cfg) hret
  | purge =>
      simp only [opens, Bool.false_eq_true, if_false, List.append_nil]
      exact retained_closed _

end Steps

section Results

variable {cfg : Side → TcpConfig} {s : Net} {e : Side × ConnInput}

/-- A step that can happen, and whose acknowledgement is recent. -/
structure DeliveryOk (cfg : Side → TcpConfig) (s : Net) (e : Side × ConnInput) : Prop
    extends NetOk cfg s e where
  recent :
    ∀ pcb, e.2.event = .segment pcb →
      Recent (s e.1).hist.accepted (s e.1.peer).consumed pcb.recvAck

/-- Both ends are in order, and keep what the other one has not consumed. -/
structure DeliveryInv (cfg : Side → TcpConfig) (s : Net) : Prop where
  inOrder : NetInv cfg s
  kept : ∀ side, Retained (s side).hist.accepted (s side.peer).consumed (s side).hist.tcb

theorem peer_peer
    (side : Side) :
    side.peer.peer = side := by
  cases side <;> rfl

theorem peer_ne
    (side : Side) :
    side.peer ≠ side := by
  cases side <;> exact fun h => by cases h

theorem deliveryInv_step
    (hcfg : ∀ side, ConfigOk (cfg side))
    (htimers : ∀ side, TimersInRange (cfg side))
    (hinv : DeliveryInv cfg s)
    (hok : DeliveryOk cfg s e) :
    DeliveryInv cfg (netStep cfg s e) := by
  obtain ⟨side, i⟩ := e
  have hafter := netInv_step hcfg htimers hinv.inOrder hok.toNetOk
  refine ⟨hafter, fun side' => ?_⟩
  have hmine := hinv.inOrder side
  have hother := hinv.inOrder side.peer
  rw [peer_peer] at hother
  by_cases hside : side' = side
  · subst hside
    have hmine' := hafter side'
    simp only [netStep, Function.update_self, Function.update_of_ne (peer_ne side')] at hmine' ⊢
    refine retained_step (hcfg side') hmine.sending hmine'.sending hmine.iss hok.legal
      (hinv.kept side') hother.recv.isPrefix fun pcb hevent => ⟨?_, hok.recent pcb hevent⟩
    obtain ⟨p, hp, hc⟩ := hok.carries pcb (.inl hevent)
    rw [hc.ack]
    exact hother.acks p hp
  · have hother' : side' = side.peer := by
      cases side <;> cases side' <;> first | rfl | exact absurd rfl hside
    subst hother'
    have hkept := hinv.kept side.peer
    rw [peer_peer] at hkept ⊢
    simp only [netStep, Function.update_self, Function.update_of_ne (peer_ne side)]
    refine hkept.consumes ?_
    -- an end that is opened has consumed nothing yet
    rw [endStep]
    cases hopens : opens i.event with
    | true =>
        rw [hok.once hopens]
        exact List.nil_prefix
    | false =>
        exact List.prefix_append _ _

theorem deliveryInv_run
    {es : List (Side × ConnInput)}
    (hcfg : ∀ side, ConfigOk (cfg side))
    (htimers : ∀ side, TimersInRange (cfg side))
    (hrun : Guarded (netStep cfg) (DeliveryOk cfg) .blank es) :
    DeliveryInv cfg (run (netStep cfg) .blank es) :=
  run_invariant (DeliveryInv cfg) (fun _ _ hinv hok => deliveryInv_step hcfg htimers hinv hok)
    ⟨fun side => endInv_blank (cfg side) .blank, fun _ => retained_dead rfl⟩ hrun

/-- Where the queue of an end begins in its stream. -/
theorem DeliveryInv.queue_eq
    {side : Side}
    (hinv : DeliveryInv cfg s)
    (hlive : (s side).hist.tcb.inHtable = true) :
    ∃ d ≤ (s side.peer).consumed.length,
      queued (s side).hist.tcb = (s side).hist.accepted.drop d := by
  have hsend := (hinv.inOrder side).sending.seq
  have hseq := hsend.seq hlive
  have hroom := (hinv.kept side hlive).1
  have hpositioned : Positioned (s side).hist.accepted (s side).hist.tcb →
      ∃ d ≤ (s side.peer).consumed.length,
        queued (s side).hist.tcb = (s side).hist.accepted.drop d := by
    rintro ⟨d, hd, hqueue, -⟩
    refine ⟨d, ?_, hqueue⟩
    rw [hqueue, List.length_drop] at hroom
    omega
  have hopening : (s side).hist.accepted = [] ∧ queued (s side).hist.tcb = [] →
      ∃ d ≤ (s side.peer).consumed.length,
        queued (s side).hist.tcb = (s side).hist.accepted.drop d := by
    rintro ⟨hnone, hempty⟩
    exact ⟨0, Nat.zero_le _, by rw [hnone, hempty, List.drop_nil]⟩
  have hclosing : AfterFin (s side).hist.tcb.state →
      ∃ d ≤ (s side.peer).consumed.length,
        queued (s side).hist.tcb = (s side).hist.accepted.drop d := by
    intro hafter
    rcases hseq.closing hafter with hpos | ⟨-, hempty⟩
    · exact hpositioned hpos
    · rw [hempty, List.length_nil, Nat.add_zero] at hroom
      exact ⟨_, le_rfl, by rw [hempty, List.drop_eq_nil_of_le hroom]⟩
  obtain ⟨hinit, hcloseWait, hclosed⟩ := hsend.send.resting hlive
  cases hstate : (s side).hist.tcb.state with
  | listen | synSent | synRecv =>
      exact hopening (hseq.opening (by simp [hstate]))
  | established =>
      exact hpositioned (hseq.estab hstate)
  | finWaitI | finWaitII | lastAck | closing | timeWait =>
      exact hclosing (by simp [AfterFin, hstate])
  | init =>
      exact absurd hstate hinit
  | closeWait =>
      exact absurd hstate hcloseWait
  | closed =>
      exact absurd hstate hclosed

/-- The timer runs until the peer has consumed everything. -/
theorem DeliveryInv.armed
    {side : Side}
    (hcfg : ∀ side, ConfigOk (cfg side))
    (hinv : DeliveryInv cfg s)
    (hlive : (s side).hist.tcb.inHtable = true)
    (hless : (s side.peer).consumed ≠ (s side).hist.accepted) :
    (s side).hist.tcb.onRtoList = true := by
  have hsend := (hinv.inOrder side).sending
  have hother := hinv.inOrder side.peer
  rw [peer_peer] at hother
  obtain ⟨hroom, htime⟩ := hinv.kept side hlive
  have hle := hother.recv.isPrefix.length_le
  have hne : (s side.peer).consumed.length ≠ (s side).hist.accepted.length :=
    fun hlen => hless (hother.recv.isPrefix.eq_of_length hlen)
  have hqueue : queued (s side).hist.tcb ≠ [] := by
    intro hnil
    rw [hnil, List.length_nil] at hroom
    omega
  have hnone : (s side).hist.accepted ≠ [] := by
    intro hnil
    rw [hnil, List.length_nil] at hle hne
    omega
  obtain ⟨hinit, hcloseWait, hclosed⟩ := hsend.seq.send.resting hlive
  have hopening := (hsend.seq.seq hlive).opening
  refine hsend.armed hlive ?_ (.inr hqueue)
  cases hstate : (s side).hist.tcb.state with
  | established =>
      exact .inl rfl
  | finWaitI | lastAck | closing =>
      exact .inr (by decide)
  | finWaitII =>
      exact absurd (finWaitII_nil (hcfg side) hsend hlive hstate) hqueue
  | timeWait =>
      exact absurd (htime hstate) hqueue
  | listen | synSent | synRecv =>
      exact absurd (hopening (by simp [hstate])).1 hnone
  | init =>
      exact absurd hstate hinit
  | closeWait =>
      exact absurd hstate hcloseWait
  | closed =>
      exact absurd hstate hclosed

/-- While less than half the sequence space was handed over, every acknowledgement is recent. -/
theorem deliveryOk_of_short
    (h : NetOk cfg s e)
    (hshort : (s e.1).hist.accepted.length < 2 ^ 31) :
    DeliveryOk cfg s e :=
  ⟨h, fun _ _ _ _ _ => hshort.trans_le (Nat.le_add_left _ _)⟩

theorem transferRun_delivers :
    Guarded (netStep fun _ => defaultConfig) (DeliveryOk fun _ => defaultConfig) .blank
      transferRun := by
  obtain ⟨h₀, h₁, h₂, h₃, h₄, h₅, h₆, h₇, h₈, h₉, h₁₀, h₁₁, -⟩ := transferRun_ok
  exact ⟨deliveryOk_of_short h₀ (by decide), deliveryOk_of_short h₁ (by decide),
    deliveryOk_of_short h₂ (by decide), deliveryOk_of_short h₃ (by decide),
    deliveryOk_of_short h₄ (by decide), deliveryOk_of_short h₅ (by decide),
    deliveryOk_of_short h₆ (by decide), deliveryOk_of_short h₇ (by decide),
    deliveryOk_of_short h₈ (by decide), deliveryOk_of_short h₉ (by decide),
    deliveryOk_of_short h₁₀ (by decide), deliveryOk_of_short h₁₁ (by decide), trivial⟩

/-- The server answers the FIN of the client with its own. -/
def closedRun : List (Side × ConnInput) :=
  transferRun ++ [(.client, .plain (.segment (plainPcb 1 6 { ack := true, fin := true } [])))]

theorem closedRun_delivers :
    Guarded (netStep fun _ => defaultConfig) (DeliveryOk fun _ => defaultConfig) .blank
      closedRun := by
  rw [closedRun, guarded_append]
  refine ⟨transferRun_delivers, deliveryOk_of_short ?_ (by decide), trivial⟩
  refine netOk_segment rfl (by decide) ?_ (by decide) (by decide) (by decide)
    (fun h => absurd rfl h) fun _ => ⟨by decide, by decide⟩
  refine ⟨?_, ?_, ?_, ?_, ?_, ?_, fun hevent => by cases hevent⟩
  · exact fun _ hs => absurd hs (by decide)
  · exact fun hs => absurd hs (by decide)
  · exact fun _ hs => absurd hs (by decide)
  · exact fun _ hs => absurd hs (by decide)
  · rintro pcb - hevent - - - hne
    cases hevent
    exact absurd (by decide) hne
  · exact fun hsends => absurd hsends.1 (by decide)

/--
What was handed over and not consumed by the peer is in the queue: it begins at a byte that the
peer has consumed, or at the next one.  The retransmission timer runs until all is consumed.
-/
theorem unconsumed_kept
    (cfg : Side → TcpConfig)
    (hcfg : ∀ side, ConfigOk (cfg side))
    (htimers : ∀ side, TimersInRange (cfg side))
    (es : List (Side × ConnInput))
    (hrun : Guarded (netStep cfg) (DeliveryOk cfg) .blank es)
    (side : Side)
    (hlive : (run (netStep cfg) .blank es side).hist.tcb.inHtable = true) :
    (∃ d ≤ (run (netStep cfg) .blank es side.peer).consumed.length,
      queued (run (netStep cfg) .blank es side).hist.tcb =
        (run (netStep cfg) .blank es side).hist.accepted.drop d) ∧
      ((run (netStep cfg) .blank es side.peer).consumed ≠
          (run (netStep cfg) .blank es side).hist.accepted →
        (run (netStep cfg) .blank es side).hist.tcb.onRtoList = true) :=
  have hinv := deliveryInv_run hcfg htimers hrun
  ⟨hinv.queue_eq hlive, hinv.armed hcfg hlive⟩

theorem unconsumed_kept_transferRun :
    (∃ d ≤ (run (netStep fun _ => defaultConfig) .blank (transferRun.take 5)
        .server).consumed.length,
      queued (run (netStep fun _ => defaultConfig) .blank (transferRun.take 5) .client).hist.tcb =
        [1, 2, 3, 4].drop d) ∧
      (run (netStep fun _ => defaultConfig) .blank (transferRun.take 5)
        .client).hist.tcb.onRtoList = true := by
  have hrun := transferRun_delivers
  rw [← List.take_append_drop 5 transferRun, guarded_append] at hrun
  obtain ⟨hqueue, harmed⟩ := unconsumed_kept (fun _ => defaultConfig) (fun _ => defaultConfig_ok)
    (fun _ => defaultTimers_inRange) (transferRun.take 5) hrun.1 .client (by decide)
  exact ⟨hqueue, harmed (by decide)⟩

/-- When the end of the stream is acknowledged, the peer has consumed all of it. -/
theorem fin_acknowledged
    (cfg : Side → TcpConfig)
    (hcfg : ∀ side, ConfigOk (cfg side))
    (htimers : ∀ side, TimersInRange (cfg side))
    (es : List (Side × ConnInput))
    (hrun : Guarded (netStep cfg) (DeliveryOk cfg) .blank es)
    (side : Side)
    (hlive : (run (netStep cfg) .blank es side).hist.tcb.inHtable = true)
    (hstate :
      (run (netStep cfg) .blank es side).hist.tcb.state = .finWaitII ∨
        (run (netStep cfg) .blank es side).hist.tcb.state = .timeWait) :
    (run (netStep cfg) .blank es side.peer).consumed =
      (run (netStep cfg) .blank es side).hist.accepted := by
  have hinv := deliveryInv_run hcfg htimers hrun
  have hother := hinv.inOrder side.peer
  rw [peer_peer] at hother
  obtain ⟨hroom, htime⟩ := hinv.kept side hlive
  have hnil : queued (run (netStep cfg) .blank es side).hist.tcb = [] := by
    rcases hstate with hstate | hstate
    · exact finWaitII_nil (hcfg side) (hinv.inOrder side).sending hlive hstate
    · exact htime hstate
  rw [hnil, List.length_nil, Nat.add_zero] at hroom
  exact hother.recv.isPrefix.eq_of_length (Nat.le_antisymm hother.recv.isPrefix.length_le hroom)

theorem fin_acknowledged_closedRun :
    (run (netStep fun _ => defaultConfig) .blank closedRun .server).consumed =
      (run (netStep fun _ => defaultConfig) .blank closedRun .client).hist.accepted :=
  fin_acknowledged (fun _ => defaultConfig) (fun _ => defaultConfig_ok)
    (fun _ => defaultTimers_inRange) closedRun closedRun_delivers .client (by decide)
    (.inr (by decide))

end Results

end StreamDelivery
end Warp17
