import Warp17.SessionGauges

/-!
# The edges of a transition

One lemma for each function of the state machine: a transition that keeps its edges ends with
the session counted as it is, or closed with flags that it may be closed with.

**Results**
- `estabSegment_ended` to `slowTimer_ended`: the functions of the states.
- `connStep_ended`: every input of a session that is alive.
- `connStep_opens`: a session that is opened counts for nothing yet.
-/

namespace Warp17
namespace GaugeTransitions

open GuardedRuns SequenceComparison MbufChains ControlBlock ReceiveBuffer SendQueue
open RetransmissionQueue TcpStateMachine TransitionPaths ConnectionRuns SendInvariants StateTraces
open SessionGauges

section Windows

variable {env : TsmEnv} {pcb : Pcb} {c c' : Tsm}

/-- The window that is left when `n` more numbers are used. -/
theorem TextLeft.full
    (h : TextLeft env pcb c c') (n : U32) :
    fullWith c'.tcb.snd.wnd (inFlight c'.tcb + n) =
      fullWith c.tcb.snd.wnd
        (inFlight c.tcb + finNumber (textAsksClose env.answer pcb c.tcb) + n) := by
  have hsub : ∀ a : U32, c.tcb.snd.nxt + a - c.tcb.snd.una = c.tcb.snd.nxt - c.tcb.snd.una + a := by
    intro a
    abel
  rw [inFlight, inFlight, h.snd, hsub]

theorem enterFinWaitI_full
    (cfg : TcpConfig) (c : Tsm) :
    tcpSndWinFull (enterFinWaitI cfg c).tcb =
      fullWith c.tcb.snd.wnd (inFlight c.tcb + 1) := by
  have hsub : c.tcb.snd.nxt + 1 - c.tcb.snd.una = c.tcb.snd.nxt - c.tcb.snd.una + 1 := by
    abel
  rw [tcpSndWinFull, (enterFinWaitI_fields cfg c).1, fullWith, inFlight, segDIFF, hsub]

theorem enterCloseWait_full
    (cfg : TcpConfig) (c : Tsm) :
    tcpSndWinFull (enterCloseWait cfg c).tcb =
      fullWith c.tcb.snd.wnd (inFlight c.tcb + 1) := by
  have hsub : c.tcb.snd.nxt + 1 - c.tcb.snd.una = c.tcb.snd.nxt - c.tcb.snd.una + 1 := by
    abel
  rw [tcpSndWinFull, enterCloseWait_fields cfg c, fullWith, inFlight, segDIFF, hsub]

/-- The number after the last one that is acknowledged is the next one. -/
theorem incUna_full
    (h : c.tcb.snd.una + 1 = c.tcb.snd.nxt) :
    tcpSndWinFull (incUna c).tcb = fullWith c.tcb.snd.wnd 0 := by
  have hsub : c.tcb.snd.nxt - (c.tcb.snd.una + 1) = 0 := by
    rw [h, sub_self]
  change decide (c.tcb.snd.wnd = c.tcb.snd.nxt - (c.tcb.snd.una + 1)) = _
  rw [hsub]
  rfl

theorem ackArrived_rcvBuf
    (pcb : Pcb) (finSent : Bool) (c : Tsm) :
    (ackArrived pcb finSent c).tcb.rcvBuf = c.tcb.rcvBuf := by
  have hclean : ∀ a, (tsmCleanupRetransQueu c a).tcb.rcvBuf = c.tcb.rcvBuf := by
    intro a
    simp only [tsmCleanupRetransQueu]
    repeat' split
    all_goals rfl
  exact ackArrived_elim (P := fun c' => c'.tcb.rcvBuf = c.tcb.rcvBuf) rfl
    (fun _ _ _ => hclean _) fun _ _ _ => hclean _

theorem acked_rcvBuf
    (pcb : Pcb) (finSent : Bool) (c : Tsm) :
    (acked pcb finSent c).tcb.rcvBuf = c.tcb.rcvBuf := by
  rw [← ackArrived_rcvBuf pcb finSent c, acked, onTcb_tcb]
  unfold updateSndWnd
  split <;> rfl

end Windows

section Segments

variable {rule : EndRule} {env : TsmEnv} {pcb : Pcb} {tcb : Tcb} {k : Nat}

/-- What precedes the ACK processing leaves the session as it is, or closes it. -/
theorem prologue_ended
    {onRst onSyn onAck : Tsm → Tsm}
    (hlive : tcb.inHtable = true)
    (hlisten : tcb.state ≠ .listen)
    (hrst : resets tcb pcb = true → EndedAs rule (flagsOf tcb) (onRst (Tsm.start tcb)))
    (hsyn : resets tcb pcb = true → EndedAs rule (flagsOf tcb) (onSyn (Tsm.start tcb)))
    (hack : ReachesAck tcb pcb → EndedAs rule (flagsOf tcb) (onAck (Tsm.start tcb))) :
    EndedAs rule (flagsOf tcb) (segmentPrologue pcb onRst onSyn onAck (Tsm.start tcb)) :=
  segmentPrologue_cases (P := EndedAs rule (flagsOf tcb))
    ((Tracked.start hlive).ended hlisten (rule.refl _))
    (((Tracked.start hlive).pkt _ _).ended hlisten (rule.refl _)) hrst hsyn hack

/-- An acknowledgement that cannot be used changes nothing. -/
theorem ackProcessing_ended
    {s : TcpState} {finSent : Bool} {onText : Tsm → Tsm}
    (hcfg : ConfigOk env.cfg)
    (hat : At env.cfg s k tcb)
    (hk : k < 2 ^ 16)
    (hlisten : s ≠ .listen)
    (htext :
      ackUsable pcb (ackArrived pcb finSent (Tsm.start tcb)).tcb = true →
        Tracked (flagsOf tcb) (stillFull tcb pcb finSent) (acked pcb finSent (Tsm.start tcb)) →
        At env.cfg s k (acked pcb finSent (Tsm.start tcb)).tcb →
        EndedAs rule (flagsOf tcb) (onText (acked pcb finSent (Tsm.start tcb)))) :
    EndedAs rule (flagsOf tcb) (ackProcessing pcb finSent onText (Tsm.start tcb)) := by
  have hstart := Tracked.start hat.live
  refine ackProcessing_elim (P := EndedAs rule (flagsOf tcb)) (fun hunusable => ?_)
    fun husable => ?_
  · rw [ackArrived_of_unusable (c := Tsm.start tcb) hcfg hat.bound hk hunusable]
    exact hstart.ended (hat.state ▸ hlisten) (rule.refl _)
  · exact htext husable (Tracked.acked (c := Tsm.start tcb) hstart pcb finSent)
      (At.acked (c := Tsm.start tcb) pcb finSent hat hcfg)

theorem estabSegment_ended
    (hcfg : ConfigOk env.cfg)
    (hat : At env.cfg .established k tcb)
    (hk : k < 2 ^ 16)
    (hreset : resets tcb pcb = true → rule.leaves (flagsOf tcb) (tcpSndWinFull tcb))
    (hkept :
      ReachesText tcb pcb false →
        rule.rests (stillFull tcb pcb false)
          (estabFull env pcb (acked pcb false (Tsm.start tcb)))) :
    EndedAs rule (flagsOf tcb) (estabSegment env pcb (Tsm.start tcb)) := by
  have hstart := Tracked.start hat.live
  refine prologue_ended hat.live (by simp [hat.state])
    (fun hr => Tracked.notifyAndClose (c := rstReceived (Tsm.start tcb))
      (hstart.onTcb rfl rfl) (hreset hr))
    (fun hr => hstart.notifyAndClose (hreset hr)) fun hreach => ?_
  refine ackProcessing_ended hcfg hat hk (by simp) fun husable hacked hstate => ?_
  have hfull := hkept ⟨hreach, husable⟩
  obtain ⟨htext, hleft⟩ := hacked.receiveAndAck env pcb (Or.inl hstate.state)
  rw [estabFull, ← TextLeft.full hleft] at hfull
  refine estabFin_cases (P := EndedAs rule (flagsOf tcb)) (fun hsees => ?_) fun hno => ?_
  · rw [hsees, finNumber, if_pos rfl] at hfull
    have hconsumed : Tracked (flagsOf tcb) (stillFull tcb pcb false)
        ((consumeFin (receiveAndAck env pcb (acked pcb false (Tsm.start tcb)))).tcpNotif
          .sessClosing) :=
      (htext.onTcb rfl rfl).emit fun _ => rfl
    refine hconsumed.enterCloseWait.ended ?_ ?_
    · rw [enterCloseWait_state]
      simp
    · rw [enterCloseWait_full]
      exact hfull
  · rw [hno, finNumber, if_neg (by simp), add_zero] at hfull
    have hlisten : (receiveAndAck env pcb (acked pcb false (Tsm.start tcb))).tcb.state ≠
        .listen := by
      rcases hleft.state with heq | heq
      · simp [heq, hstate.state]
      · simp [heq]
    exact ⟨htext.ended hlisten hfull,
      Tracked.ended (c := rememberFin pcb _) (htext.onTcb rfl rfl) hlisten hfull⟩

theorem synRecvSegment_ended
    (hinv : SendInv env.cfg anySlack tcb)
    (hlive : tcb.inHtable = true)
    (hstate : tcb.state = .synRecv)
    (hreset : resets tcb pcb = true → rule.leaves (flagsOf tcb) (tcpSndWinFull tcb))
    (hkept :
      ReachesAck tcb pcb →
        segGE pcb.recvAck tcb.snd.una = true → segLE pcb.recvAck tcb.snd.nxt = true →
        rule.rests (tcpSndWinFull tcb)
          (fullWith (pcb.rxWin.zeroExtend 32)
            (inFlight (synRecvText tcb pcb).tcb +
              finNumber (textAsksClose env.answer pcb (synRecvText tcb pcb).tcb) +
              finNumber pcb.flags.fin))) :
    EndedAs rule (flagsOf tcb) (synRecvSegment env pcb (Tsm.start tcb)) := by
  obtain ⟨huna, hnxt, -⟩ := hinv.handshake hlive (Or.inr hstate)
  have hlisten : tcb.state ≠ .listen := by simp [hstate]
  have hstart := Tracked.start hlive
  refine prologue_ended hlive hlisten
    (fun hr => Tracked.notifyAndClose (c := rstReceived (Tsm.start tcb))
      (hstart.onTcb rfl rfl) (hreset hr))
    (fun hr => hstart.notifyAndClose (hreset hr)) fun hreach => ?_
  unfold synRecvAck
  split
  · exact (hstart.pkt _ _).ended hlisten (rule.refl _)
  · rename_i hok
    rw [Bool.not_eq_true', Bool.not_eq_false, Bool.and_eq_true] at hok
    have hfull := hkept hreach hok.1 hok.2
    have hclean : (if segGT pcb.recvAck tcb.snd.una then
          tsmCleanupRetransQueu (incUna (Tsm.start tcb)) pcb.recvAck
        else Tsm.start tcb) =
          if segGT pcb.recvAck tcb.snd.una then incUna (Tsm.start tcb) else Tsm.start tcb := by
      split
      · rename_i hgt
        have hrecv : pcb.recvAck = tcb.snd.iss ∨ pcb.recvAck = tcb.snd.iss + 1 :=
          synRecv_recvAck (huna ▸ hok.1) (hnxt ▸ hok.2)
        rcases hrecv with hold | hnew
        · rw [hold, huna, segGT, segLT_self] at hgt
          cases hgt
        · rw [hnew, ← huna]
          exact tsmCleanupRetransQueu_una (incUna (Tsm.start tcb))
      · rfl
    have htracked : Tracked (flagsOf tcb) (tcpSndWinFull tcb) (synRecvText tcb pcb) := by
      unfold synRecvText
      split
      · exact hstart.keep rfl rfl (NoEdges.of_out rfl)
      · exact hstart.onTcb rfl rfl
    have hsyn : (synRecvText tcb pcb).tcb.state = .synRecv := by
      unfold synRecvText
      split <;> exact hstate
    have hwnd : (synRecvText tcb pcb).tcb.snd.wnd = pcb.rxWin.zeroExtend 32 := by
      unfold synRecvText
      split <;> rfl
    obtain ⟨htext, hleft⟩ := htracked.receiveAndAck env pcb (Or.inr hsyn)
    rw [← hwnd, ← TextLeft.full hleft] at hfull
    have hgoal : EndedAs rule (flagsOf tcb)
        (if pcb.flags.fin then
          enterCloseWait env.cfg ((consumeFin
            (receiveAndAck env pcb (synRecvText tcb pcb))).tcpNotif .sessClosing)
        else
          enterEstablished ((receiveAndAck env pcb (synRecvText tcb pcb)).onTcb
            tcpTimerRtoCancel)) := by
      split
      · rename_i hfin
        rw [hfin, finNumber, if_pos rfl] at hfull
        have hconsumed : Tracked (flagsOf tcb) (tcpSndWinFull tcb)
            ((consumeFin (receiveAndAck env pcb (synRecvText tcb pcb))).tcpNotif
              .sessClosing) :=
          (htext.onTcb rfl rfl).emit fun _ => rfl
        refine hconsumed.enterCloseWait.ended ?_ ?_
        · rw [enterCloseWait_state]
          simp
        · rw [enterCloseWait_full]
          exact hfull
      · rename_i hfin
        rw [finNumber, if_neg hfin, add_zero] at hfull
        exact Tracked.ended (c := enterEstablished _)
          (Tracked.setState (htext.onTcb rfl rfl) .established)
          (by simp [enterEstablished, setState]) hfull
    change EndedAs rule (flagsOf tcb) (synRecvAcked env pcb
      (if segGT pcb.recvAck tcb.snd.una then
        tsmCleanupRetransQueu (incUna (Tsm.start tcb)) pcb.recvAck
      else Tsm.start tcb))
    rw [hclean]
    exact hgoal

/-- A step over a FIN that came early changes nothing that is counted. -/
theorem stepOverFin_tracked
    {f : Flags} {w : Bool} {c : Tsm}
    (h : Tracked f w c) :
    Tracked f w (finWaitIStepOverFin c) := by
  unfold finWaitIStepOverFin
  split
  · exact h.onTcb rfl rfl
  · exact h

theorem finWaitIStepOverFin_send
    (c : Tsm) :
    (finWaitIStepOverFin c).tcb.snd = c.tcb.snd ∧
      (finWaitIStepOverFin c).tcb.state = c.tcb.state := by
  unfold finWaitIStepOverFin
  split <;> exact ⟨rfl, rfl⟩

/-- The FIN bit in `TS_FIN_WAIT_I`. -/
theorem finWaitIFin_ended
    {f : Flags} {w : Bool} {ours : Bool} {c : Tsm}
    (h : Tracked f w c)
    (hstate : c.tcb.state = .finWaitI)
    (hsettled :
      rule.Settled w
        (ours && pcb.flags.fin && decide (c.tcb.rcv.nxt = pcb.sentSeq + pcb.l5Len) &&
          env.cfg.sockopt.tcpoSkipTimewait)
        c.tcb.rcvBuf (tcpSndWinFull c.tcb)) :
    EndedAs rule f (finWaitIFin env pcb ours c) := by
  have hlisten : c.tcb.state ≠ .listen := by simp [hstate]
  unfold EndRule.Settled at hsettled
  unfold finWaitIFin
  split
  · rename_i hnofin
    rw [Bool.not_eq_true'] at hnofin
    simp only [hnofin, Bool.and_false, Bool.false_and, Bool.false_eq_true, if_false]
      at hsettled
    obtain ⟨hsnd, hkeeps⟩ := finWaitIStepOverFin_send c
    have hstep := (stepOverFin_tracked h).pkt (finWaitIStepOverFin c).tcb.snd.nxt { ack := true }
    have hfull : rule.rests w (tcpSndWinFull (finWaitIStepOverFin c).tcb) := by
      rw [tcpSndWinFull, hsnd]
      exact hsettled
    simp only
    split
    · refine Tracked.ended (c := enterFinWaitII env.cfg _)
        (Tracked.slowSet (Tracked.setState (hstep.onTcb rfl rfl) .finWaitII) _) ?_ ?_
      · rw [enterFinWaitII_state]
        simp
      · rw [enterFinWaitII, onTcb_tcb, tcpTimerSlowSet_eq]
        exact hfull
    · exact hstep.ended (hkeeps ▸ hlisten) hfull
  · rename_i hfin
    have hfin' : pcb.flags.fin = true := by simpa using hfin
    split
    · rename_i hnext
      simp only [hnext, decide_false, Bool.and_false, Bool.false_and, Bool.false_eq_true,
        if_false] at hsettled
      exact Tracked.ended (c := rememberFin pcb c) (h.onTcb rfl rfl) hlisten hsettled
    · rename_i hnext
      have hnext' : c.tcb.rcv.nxt = pcb.sentSeq + pcb.l5Len := not_not.1 hnext
      simp only [hfin', hnext', Bool.and_true, decide_true] at hsettled
      have hconsumed : Tracked f w
          ((consumeFin c).tcpSendAckPkt.onTcb tcpTimerSlowCancel) :=
        ((h.onTcb rfl rfl).pkt _ _).onTcb rfl rfl
      simp only
      split
      · rename_i hours
        rw [hours, Bool.true_and] at hsettled
        refine hconsumed.enterTimeWait (fun hskip => ?_) fun hstay => ?_
        · rw [if_pos hskip] at hsettled
          exact hsettled
        · rw [if_neg (by simp [hstay])] at hsettled
          exact hsettled
      · rename_i hours
        rw [if_neg (by simp [hours])] at hsettled
        refine Tracked.ended (c := enterClosing env.cfg _)
          (Tracked.schedule (hconsumed.setState .closing)) ?_ ?_
        · rw [enterClosing_state]
          simp
        · rw [enterClosing, onTcb_tcb, tsmScheduleRetransmission_eq]
          exact hsettled

theorem finWaitISegment_ended
    (hcfg : ConfigOk env.cfg)
    (hat : At env.cfg .finWaitI k tcb)
    (hk : k < 2 ^ 16)
    (hreset : resets tcb pcb = true → rule.leaves (flagsOf tcb) (tcpSndWinFull tcb))
    (hkept :
      ReachesText tcb pcb true →
        rule.Settled (stillFull tcb pcb true)
          (finWaitICloses env pcb (acked pcb true (Tsm.start tcb)))
          (receiveText env pcb (incUna (acked pcb true (Tsm.start tcb)))).tcb.rcvBuf
          (finWaitIFull pcb (acked pcb true (Tsm.start tcb)))) :
    EndedAs rule (flagsOf tcb) (finWaitISegment env pcb (Tsm.start tcb)) := by
  have hstart := Tracked.start hat.live
  refine prologue_ended hat.live (by simp [hat.state])
    (fun hr => Tracked.enterClosed
      (c := rstReceived ((Tsm.start tcb).onTcb tcpTimerSlowCancel))
      ((hstart.onTcb rfl rfl).onTcb rfl rfl) (hreset hr))
    (fun hr => Tracked.enterClosed (c := (Tsm.start tcb).onTcb tcpTimerSlowCancel)
      (hstart.onTcb rfl rfl) (hreset hr)) fun hreach => ?_
  refine ackProcessing_ended hcfg hat hk (by simp) fun husable hacked hstate => ?_
  have hsettled := hkept ⟨hreach, husable⟩
  unfold finWaitICloses finWaitIFull at hsettled
  unfold finWaitIText
  split
  · rename_i hours
    have hsyn : Tracked (flagsOf tcb) (stillFull tcb pcb true)
        (incUna (acked pcb true (Tsm.start tcb))) := hacked.onTcb rfl rfl
    obtain ⟨htext, hsame⟩ := hsyn.receiveText env pcb (Or.inl hstate.state)
    refine finWaitIFin_ended htext (hsame.state.trans hstate.state) ?_
    have hnext : (acked pcb true (Tsm.start tcb)).tcb.snd.una + 1 =
        (acked pcb true (Tsm.start tcb)).tcb.snd.nxt := by
      rw [ourFinAcked, Bool.and_eq_true, decide_eq_true_eq] at hours
      rw [hours.1]
      abel
    have hfull : tcpSndWinFull (receiveText env pcb
          (incUna (acked pcb true (Tsm.start tcb)))).tcb =
        fullWith (acked pcb true (Tsm.start tcb)).tcb.snd.wnd 0 := by
      rw [← incUna_full hnext, tcpSndWinFull, hsame.snd, tcpSndWinFull]
    rw [hfull]
    rw [hours, if_pos rfl] at hsettled
    exact hsettled
  · rename_i hours
    obtain ⟨htext, hsame⟩ := hacked.receiveText env pcb (Or.inl hstate.state)
    refine finWaitIFin_ended htext (hsame.state.trans hstate.state) ?_
    have hfull : tcpSndWinFull (receiveText env pcb (acked pcb true (Tsm.start tcb))).tcb =
        tcpSndWinFull (acked pcb true (Tsm.start tcb)).tcb := by
      rw [tcpSndWinFull, hsame.snd, tcpSndWinFull]
    rw [hfull]
    unfold EndRule.Settled at hsettled ⊢
    simp only [hours, Bool.false_eq_true, Bool.false_and, if_false] at hsettled ⊢
    exact hsettled

theorem finWaitIISegment_ended
    (hcfg : ConfigOk env.cfg)
    (hat : At env.cfg .finWaitII k tcb)
    (hk : k < 2 ^ 16)
    (hreset : resets tcb pcb = true → rule.leaves (flagsOf tcb) (tcpSndWinFull tcb))
    (hkept :
      ReachesText tcb pcb false →
        rule.Settled (stillFull tcb pcb false)
          (pcb.flags.fin && env.cfg.sockopt.tcpoSkipTimewait)
          (receiveText env pcb (acked pcb false (Tsm.start tcb))).tcb.rcvBuf
          (tcpSndWinFull (acked pcb false (Tsm.start tcb)).tcb)) :
    EndedAs rule (flagsOf tcb) (finWaitIISegment env pcb (Tsm.start tcb)) := by
  have hstart := Tracked.start hat.live
  refine prologue_ended hat.live (by simp [hat.state])
    (fun hr => Tracked.enterClosed
      (c := rstReceived ((Tsm.start tcb).onTcb tcpTimerSlowCancel))
      ((hstart.onTcb rfl rfl).onTcb rfl rfl) (hreset hr))
    (fun hr => Tracked.enterClosed (c := (Tsm.start tcb).onTcb tcpTimerSlowCancel)
      (hstart.onTcb rfl rfl) (hreset hr)) fun hreach => ?_
  refine ackProcessing_ended hcfg hat hk (by simp) fun husable hacked hstate => ?_
  have hsettled := hkept ⟨hreach, husable⟩
  obtain ⟨htext, hsame⟩ := hacked.receiveText env pcb (Or.inr hstate.state)
  have hfull : tcpSndWinFull (receiveText env pcb (acked pcb false (Tsm.start tcb))).tcb =
      tcpSndWinFull (acked pcb false (Tsm.start tcb)).tcb := by
    rw [tcpSndWinFull, hsame.snd, tcpSndWinFull]
  unfold EndRule.Settled at hsettled
  rw [← hfull] at hsettled
  unfold finWaitIIText
  simp only
  split
  · rename_i hnofin
    rw [Bool.not_eq_true'] at hnofin
    rw [hnofin, Bool.false_and, if_neg (by simp)] at hsettled
    exact (htext.pkt _ _).ended (by simp [hsame.state, hstate.state]) hsettled
  · rename_i hfin
    have hfin' : pcb.flags.fin = true := by simpa using hfin
    rw [hfin', Bool.true_and] at hsettled
    have hconsumed : Tracked (flagsOf tcb) (stillFull tcb pcb false)
        (consumeFin ((receiveText env pcb (acked pcb false (Tsm.start tcb))).onTcb
          tcpTimerSlowCancel)).tcpSendAckPkt :=
      ((htext.onTcb rfl rfl).onTcb rfl rfl).pkt _ _
    refine hconsumed.enterTimeWait (fun hskip => ?_) fun hstay => ?_
    · rw [if_pos hskip] at hsettled
      exact hsettled
    · rw [if_neg (by simp [hstay])] at hsettled
      exact hsettled

theorem closingSegment_ended
    (hcfg : ConfigOk env.cfg)
    (hat : At env.cfg .closing k tcb)
    (hk : k < 2 ^ 16)
    (hreset : resets tcb pcb = true → rule.leaves (flagsOf tcb) (tcpSndWinFull tcb))
    (hkept :
      ReachesText tcb pcb true →
        rule.Settled (stillFull tcb pcb true)
          (ourFinAcked pcb (acked pcb true (Tsm.start tcb)).tcb &&
            env.cfg.sockopt.tcpoSkipTimewait)
          tcb.rcvBuf (tcpSndWinFull (acked pcb true (Tsm.start tcb)).tcb)) :
    EndedAs rule (flagsOf tcb) (closingSegment env pcb (Tsm.start tcb)) := by
  have hstart := Tracked.start hat.live
  refine prologue_ended hat.live (by simp [hat.state])
    (fun hr => Tracked.enterClosed (c := rstReceived (Tsm.start tcb))
      (hstart.onTcb rfl rfl) (hreset hr))
    (fun hr => hstart.enterClosed (hreset hr)) fun hreach => ?_
  refine ackProcessing_ended hcfg hat hk (by simp) fun husable hacked hstate => ?_
  have hsettled := hkept ⟨hreach, husable⟩
  unfold EndRule.Settled at hsettled
  split
  · rename_i hours
    rw [hours, Bool.true_and] at hsettled
    refine Tracked.enterTimeWait (hacked.onTcb rfl rfl) (fun hskip => ?_) fun hstay => ?_
    · rw [if_pos hskip] at hsettled
      change rule.leaves { winFull := _, missing := !(acked pcb true _).tcb.rcvBuf.isEmpty } _
      rw [acked_rcvBuf]
      exact hsettled
    · rw [if_neg (by simp [hstay])] at hsettled
      exact hsettled
  · rename_i hours
    simp only [hours, Bool.false_and, Bool.false_eq_true, if_false] at hsettled
    exact hacked.ended (by simp [hstate.state]) hsettled

theorem lastAckSegment_ended
    (hlive : tcb.inHtable = true)
    (hstate : tcb.state = .lastAck)
    (hreset : resets tcb pcb = true → rule.leaves (flagsOf tcb) (tcpSndWinFull tcb))
    (hacked :
      ReachesAck tcb pcb → pcb.recvAck = tcb.snd.nxt →
        rule.leaves (flagsOf tcb) (tcpSndWinFull tcb)) :
    EndedAs rule (flagsOf tcb) (lastAckSegment pcb (Tsm.start tcb)) := by
  have hlisten : tcb.state ≠ .listen := by simp [hstate]
  have hstart := Tracked.start hlive
  refine prologue_ended hlive hlisten
    (fun hr => Tracked.enterClosed (c := rstReceived (Tsm.start tcb))
      (hstart.onTcb rfl rfl) (hreset hr))
    (fun hr => hstart.enterClosed (hreset hr)) fun hreach => ?_
  split
  · rename_i hnext
    exact hstart.enterClosed (hacked hreach hnext)
  · exact hstart.ended hlisten (rule.refl _)

/-- The timer may be found stopped, which fails an assertion. -/
theorem timeWaitSegment_ended
    (hlive : tcb.inHtable = true)
    (hstate : tcb.state = .timeWait)
    (hreset : resets tcb pcb = true → rule.leaves (flagsOf tcb) (tcpSndWinFull tcb)) :
    EndedAs rule (flagsOf tcb) (timeWaitSegment env pcb (Tsm.start tcb)) := by
  have hlisten : tcb.state ≠ .listen := by simp [hstate]
  have hstart := Tracked.start hlive
  unfold timeWaitSegment
  split
  · split
    · exact hstart.ended hlisten (rule.refl _)
    · exact (hstart.pkt _ _).ended hlisten (rule.refl _)
  · rename_i haccept
    rw [Bool.not_eq_true', Bool.not_eq_false] at haccept
    have haccept' : tsmDoReceiveAcceptanceTest tcb pcb.l5Len pcb.sentSeq = true := haccept
    split
    · rename_i hflag
      exact Tracked.enterClosed (c := rstReceived (Tsm.start tcb)) (hstart.onTcb rfl rfl)
        (hreset (by rw [resets, haccept', hflag]; rfl))
    · split
      · rename_i hflag
        exact hstart.enterClosed (hreset (by rw [resets, haccept', hflag, Bool.or_true]; rfl))
      · unfold timeWaitRestart
        have hcancel : Tracked (flagsOf tcb) (tcpSndWinFull tcb)
            ((if (Tsm.start tcb).tcpSendAckPkt.tcb.onSlowList then
                (Tsm.start tcb).tcpSendAckPkt
              else (Tsm.start tcb).tcpSendAckPkt.emit .asserted).onTcb tcpTimerSlowCancel) := by
          split
          · exact (hstart.pkt _ _).onTcb rfl rfl
          · exact ((hstart.pkt _ _).emit fun _ => rfl).onTcb rfl rfl
        refine Tracked.ended (Tracked.slowSet hcancel _) ?_ ?_
        · rw [onTcb_tcb, Function.comp_apply, tcpTimerSlowSet_eq]
          split <;> exact hlisten
        · rw [onTcb_tcb, Function.comp_apply, tcpTimerSlowSet_eq]
          split <;> exact rule.refl _

/-- A callback that closes the connection leaves no out-of-order data. -/
theorem receiveText_closed
    {c : Tsm}
    (hasks : textAsksClose env.answer pcb c.tcb = true)
    (hstate : c.tcb.state = .synSent) :
    (receiveText env pcb c).tcb.inHtable = false ∧
      (receiveText env pcb c).tcb.rcvBuf = [] ∧
      (receiveText env pcb c).tcb.snd = c.tcb.snd := by
  have hquiet := quiet_handled env pcb c pcb.sentSeq pcb.l5Len
  have hstate' := hquiet.same.state.trans hstate
  rw [textAsksClose, Bool.and_eq_true, decide_eq_true_eq] at hasks
  simp only [receiveText, tsmHandleIncoming, hasks.1, hasks.2, if_false, if_true,
    countMissingSeq_tcb, tsmClose, hstate']
  refine ⟨(tcpSilentClose_dead _).1, rfl, Eq.trans ?_ hquiet.same.snd⟩
  unfold notifyAndClose enterClosed tcpSilentClose
  simp only
  split <;> rfl

theorem synSentSegment_ended
    (hinv : SendInv env.cfg anySlack tcb)
    (hlive : tcb.inHtable = true)
    (hstate : tcb.state = .synSent)
    (hreset : pcb.flags.rst = true → rule.leaves (flagsOf tcb) (tcpSndWinFull tcb))
    (hkept :
      SynAckArrives tcb pcb →
        rule.Settled (tcpSndWinFull tcb)
          (textAsksClose env.answer pcb (synAckText pcb (Tsm.start tcb)).tcb) []
          (fullWith (pcb.rxWin.zeroExtend 32) 0)) :
    EndedAs rule (flagsOf tcb) (synSentSegment env pcb (Tsm.start tcb)) := by
  obtain ⟨huna, hnxt, -⟩ := hinv.handshake hlive (Or.inl hstate)
  have hlisten : tcb.state ≠ .listen := by simp [hstate]
  have hstart := Tracked.start hlive
  refine synSentSegment_cases (P := EndedAs rule (flagsOf tcb)) huna hnxt
    (hstart.ended hlisten (rule.refl _)) ((hstart.pkt _ _).ended hlisten (rule.refl _))
    (fun hrst => Tracked.notifyAndClose (c := rstReceived (Tsm.start tcb))
      (hstart.onTcb rfl rfl) (hreset hrst)) ?_ ?_
  · rintro -
    have hcrossed : Tracked (flagsOf tcb) (tcpSndWinFull tcb)
        (((Tsm.start tcb).onTcb (synReceived pcb)).tcpSendCtrlPktUseIss
          { ack := true, syn := true }) :=
      (hstart.onTcb rfl rfl).pkt _ _
    refine Tracked.ended (c := enterSynRecv env.cfg _)
      (Tracked.schedule ((hcrossed.setState .synRecv).emit fun _ => rfl)) ?_ ?_
    · rw [enterSynRecv, onTcb_tcb, tsmScheduleRetransmission_eq]
      simp [setState]
    · rw [enterSynRecv, onTcb_tcb, tsmScheduleRetransmission_eq]
      exact rule.refl _
  · intro harrives
    have hsettled := hkept harrives
    unfold EndRule.Settled at hsettled
    have htext : Tracked (flagsOf tcb) (tcpSndWinFull tcb) (synAckText pcb (Tsm.start tcb)) :=
      ((((hstart.onTcb rfl rfl).onTcb rfl rfl).onTcb rfl rfl).emit fun _ => rfl)
    have hflags := flagSteps_receiveText env pcb htext
    -- nothing is in flight when our SYN is acknowledged
    have hfirst : tcpSndWinFull (synAckText pcb (Tsm.start tcb)).tcb =
        fullWith (pcb.rxWin.zeroExtend 32) 0 := by
      have hnone : tcb.snd.nxt - (tcb.snd.una + 1) = 0 := by
        rw [hnxt, huna, sub_self]
      change decide (pcb.rxWin.zeroExtend 32 = tcb.snd.nxt - (tcb.snd.una + 1)) = _
      rw [hnone]
      rfl
    rw [← hfirst] at hsettled
    have hfull : ∀ c' : Tsm, c'.tcb.snd = (synAckText pcb (Tsm.start tcb)).tcb.snd →
        tcpSndWinFull c'.tcb = tcpSndWinFull (synAckText pcb (Tsm.start tcb)).tcb := by
      intro c' hsnd
      rw [tcpSndWinFull, hsnd, tcpSndWinFull]
    cases hasks : textAsksClose env.answer pcb (synAckText pcb (Tsm.start tcb)).tcb with
    | true =>
        rw [if_pos hasks] at hsettled
        obtain ⟨hdead, hbuf, hsnd⟩ := receiveText_closed hasks hstate
        have hdone : NoEdges (receiveText env pcb (synAckText pcb (Tsm.start tcb)))
            (synAckDone env pcb (Tsm.start tcb)) :=
          (NoEdges.of_out rfl).emit (o := .enter .established) fun _ => rfl
        have hends : ∀ c', NoEdges (receiveText env pcb (synAckText pcb (Tsm.start tcb))) c' →
            c'.tcb.inHtable = (synAckDone env pcb (Tsm.start tcb)).tcb.inHtable →
            c'.tcb.snd = (synAckDone env pcb (Tsm.start tcb)).tcb.snd →
            EndedAs rule (flagsOf tcb) c' := by
          intro c' hno hlive' hsnd'
          refine .closed (hlive'.trans hdead) ((hfull c' (hsnd'.trans hsnd)).symm ▸ hsettled) ?_
          rw [hno.flagSteps_eq, hflags, hbuf]
        exact ⟨hends _ hdone rfl rfl, hends _ (hdone.emit fun _ => rfl) rfl rfl⟩
    | false =>
        rw [if_neg (by simp [hasks])] at hsettled
        have hquiet := receiveText_quiet hasks
        have hlive' := hquiet.same.inHtable.trans htext.live
        have htracked : Tracked (flagsOf tcb) (tcpSndWinFull tcb)
            (synAckDone env pcb (Tsm.start tcb)) :=
          Tracked.setState (Tracked.onTcb ⟨hflags, hlive'⟩ rfl rfl) .established
        rw [← hfull (synAckDone env pcb (Tsm.start tcb)) hquiet.same.snd] at hsettled
        have hstays : (synAckDone env pcb (Tsm.start tcb)).tcb.state ≠ .listen := by
          simp [synAckDone, enterEstablished, setState]
        exact ⟨htracked.ended hstays hsettled, (htracked.pkt _ _).ended hstays hsettled⟩

/-- Every segment of a session. -/
theorem segment_ended
    {leave : Leave}
    (hcfg : ConfigOk env.cfg)
    (hinv : SendInv env.cfg anySlack tcb)
    (hlive : tcb.inHtable = true)
    (hlisten : tcb.state ≠ .listen)
    (hkept : SegmentKept leave env tcb pcb) :
    Ended leave (flagsOf tcb) (tsmSegmentArrives env pcb (Tsm.start tcb)) := by
  have hat := hinv.at hlive
  have hslack : (anySlack.of tcb.state) < 2 ^ 16 := by
    cases tcb.state <;> decide
  obtain ⟨hinit, hcloseWait, hclosed⟩ := hinv.resting hlive
  unfold SegmentKept at hkept
  unfold tsmSegmentArrives
  cases hstate : tcb.state with
  | synSent =>
      simp only [hstate] at hkept
      simp only [Tsm.start, hstate]
      exact (synSentSegment_ended hinv hlive hstate hkept.1 hkept.2).ended
  | synRecv =>
      simp only [hstate] at hkept
      simp only [Tsm.start, hstate]
      exact (synRecvSegment_ended hinv hlive hstate hkept.1 hkept.2).ended
  | established =>
      simp only [hstate] at hkept hat hslack
      simp only [Tsm.start, hstate]
      exact (estabSegment_ended hcfg hat hslack hkept.1 hkept.2).ended
  | finWaitI =>
      simp only [hstate] at hkept hat hslack
      simp only [Tsm.start, hstate]
      exact (finWaitISegment_ended hcfg hat hslack hkept.1 hkept.2).ended
  | finWaitII =>
      simp only [hstate] at hkept hat hslack
      simp only [Tsm.start, hstate]
      exact (finWaitIISegment_ended hcfg hat hslack hkept.1 hkept.2).ended
  | lastAck =>
      simp only [hstate] at hkept
      simp only [Tsm.start, hstate]
      have hends : EndedAs (.counted leave) (flagsOf tcb)
          (lastAckSegment pcb (Tsm.start tcb)) :=
        lastAckSegment_ended hlive hstate hkept.1 hkept.2
      exact hends.ended
  | closing =>
      simp only [hstate] at hkept hat hslack
      simp only [Tsm.start, hstate]
      exact (closingSegment_ended hcfg hat hslack hkept.1 hkept.2).ended
  | timeWait =>
      simp only [hstate] at hkept
      simp only [Tsm.start, hstate]
      exact (timeWaitSegment_ended hlive hstate hkept).ended
  | listen =>
      exact absurd hstate hlisten
  | init =>
      exact absurd hstate hinit
  | closeWait =>
      exact absurd hstate hcloseWait
  | closed =>
      exact absurd hstate hclosed

end Segments

section Others

variable {rule : EndRule} {env : TsmEnv} {tcb : Tcb} {f : Flags} {w : Bool} {c : Tsm} {k : Nat}

/-- Data segments change no gauge. -/
theorem sentSegs_tracked
    (h : Tracked f w c) (flags : TcpFlags) (sseq : U32) (bytes : List UInt8) (ns : List Nat) :
    Tracked f w (sentSegs c flags sseq bytes ns) := by
  refine h.keep rfl rfl ⟨_, rfl, fun x hx => ?_⟩
  obtain ⟨p, -, rfl⟩ := List.mem_map.1 hx
  exact fun _ => rfl

theorem tcpDataSend_tracked
    {data : TsmDataArg}
    (h : Tracked f w c)
    (hcfg : ConfigOk env.cfg)
    (hqueue : QueueFlight env.cfg k c.tcb)
    (hdata : SendChainOk c.tcb data.tdaMbuf) :
    Tracked f w (tcpDataSend env c data) := by
  rcases tcpDataSend_spec hcfg.mtu hqueue.queue hdata with heq | ⟨tcb', ns, hsent⟩
  · rw [heq]
    exact h.keep rfl rfl (NoEdges.of_out rfl)
  · have hstored : Tracked f w { c with tcb := tcb' } := by
      refine h.keep ?_ ?_ (NoEdges.of_out rfl)
      · rw [hsent.stored.others]
      · rw [hsent.stored.others]
    rw [hsent.result]
    exact (sentSegs_tracked hstored _ _ _ _).keep rfl rfl (NoEdges.of_out rfl)

theorem tcpDataRetrans_tracked
    (h : Tracked f w c)
    (hcfg : ConfigOk env.cfg)
    (hqueue : QueueFlight env.cfg k c.tcb) :
    Tracked f w (tcpDataRetrans env c) := by
  have hw := hcfg.winSize
  obtain ⟨heq, -⟩ := tcpDataRetrans_spec env hcfg.mtu hqueue.queue (by omega)
  rw [heq]
  exact sentSegs_tracked h _ _ _ _

theorem schedule_full
    (cfg : TcpConfig) (c : Tsm) :
    tcpSndWinFull (c.onTcb (tsmScheduleRetransmission cfg)).tcb = tcpSndWinFull c.tcb := by
  rw [onTcb_tcb, tsmScheduleRetransmission_eq]
  rfl

/-- A window that is filled by a retransmission is counted. -/
theorem tsmRetransData_tracked
    (h : Tracked f (tcpSndWinFull c.tcb) c)
    (hcfg : ConfigOk env.cfg)
    (hqueue : QueueFlight env.cfg k c.tcb) :
    Tracked f (tcpSndWinFull (tsmRetransData env c).tcb) (tsmRetransData env c) := by
  have hdone := (tcpDataRetrans_tracked h hcfg hqueue).unavail fun hfull =>
    tcpDataRetrans_full hcfg hqueue hfull
  have htcb : (tsmRetransData env c).tcb = (tcpDataRetrans env c).tcb := by
    unfold tsmRetransData notifyWinUnavail
    split <;> rfl
  rw [htcb]
  exact hdone

/-- A transition that only fails. -/
theorem fail_ended
    (e : Errno)
    (hlive : tcb.inHtable = true)
    (hlisten : tcb.state ≠ .listen) :
    EndedAs rule (flagsOf tcb) ((Tsm.start tcb).fail e) :=
  ((Tracked.start hlive).fail e).ended hlisten (rule.refl _)

/-- A window that is filled by a send is counted. -/
theorem tsmSend_ended
    (env : TsmEnv) (data : TsmDataArg)
    (hcfg : ConfigOk env.cfg)
    (hinv : SendInv env.cfg anySlack tcb)
    (hlive : tcb.inHtable = true)
    (hlisten : tcb.state ≠ .listen)
    (hdata : SendChainOk tcb data.tdaMbuf) :
    EndedAs rule (flagsOf tcb) (tsmSend env (Tsm.start tcb) data) := by
  have hstart := Tracked.start hlive
  have hqueue := hinv.bound hlive
  obtain ⟨-, hcloseWait, -⟩ := hinv.resting hlive
  cases hstate : tcb.state with
  | established =>
      have hsent : Tracked (flagsOf tcb) (tcpSndWinFull tcb)
          ((tcpDataSend env (Tsm.start tcb) data).onTcb (tsmScheduleRetransmission env.cfg)) :=
        (tcpDataSend_tracked hstart hcfg hqueue hdata).schedule
      have hdone := hsent.unavail fun hfull => by
        rw [schedule_full]
        exact tcpDataSend_full (c := Tsm.start tcb) hfull
      have hstays := (tcpDataSend_state (c := Tsm.start tcb) hcfg.mtu hqueue.queue hdata).1
      have htcb : (tsmSendData env (Tsm.start tcb) data).tcb =
          ((tcpDataSend env (Tsm.start tcb) data).onTcb
            (tsmScheduleRetransmission env.cfg)).tcb := by
        unfold tsmSendData notifyWinUnavail
        split <;> rfl
      have hsend : tsmSend env (Tsm.start tcb) data = tsmSendData env (Tsm.start tcb) data := by
        simp only [tsmSend, Tsm.start, hstate]
      rw [hsend]
      refine Tracked.ended hdone ?_ ?_
      · rw [htcb, onTcb_tcb, tsmScheduleRetransmission_eq]
        exact hstays ▸ hlisten
      · rw [htcb]
        exact rule.refl _
  | closeWait =>
      exact absurd hstate hcloseWait
  | init | listen | synSent | synRecv | finWaitI | finWaitII | lastAck | closing | timeWait
  | closed =>
      simp only [tsmSend, Tsm.start, hstate]
      exact fail_ended _ hlive hlisten

/-- `TE_CLOSE`. -/
theorem tsmClose_ended
    (cfg : TcpConfig)
    (hlive : tcb.inHtable = true)
    (hlisten : tcb.state ≠ .listen)
    (hinit : tcb.state ≠ .init)
    (hleaves : tcb.state = .synSent → rule.leaves (flagsOf tcb) (tcpSndWinFull tcb))
    (hsends :
      tcb.state = .synRecv ∨ tcb.state = .established →
        rule.rests (tcpSndWinFull tcb) (fullWith tcb.snd.wnd (inFlight tcb + 1))) :
    EndedAs rule (flagsOf tcb) (tsmClose cfg (Tsm.start tcb)) := by
  have hstart := Tracked.start hlive
  have hfinWait : rule.rests (tcpSndWinFull tcb) (fullWith tcb.snd.wnd (inFlight tcb + 1)) →
      EndedAs rule (flagsOf tcb)
        (enterFinWaitI cfg ((Tsm.start tcb).tcpNotif .sessClosing)) := by
    intro hfull
    have hnotif : Tracked (flagsOf tcb) (tcpSndWinFull tcb)
        ((Tsm.start tcb).tcpNotif .sessClosing) := hstart.emit fun _ => rfl
    refine hnotif.enterFinWaitI.ended ?_ ?_
    · rw [enterFinWaitI_state]
      simp
    · rw [enterFinWaitI_full]
      exact hfull
  unfold tsmClose
  cases hstate : tcb.state with
  | synSent =>
      simp only [Tsm.start, hstate]
      exact hstart.notifyAndClose (hleaves hstate)
  | synRecv =>
      simp only [Tsm.start, hstate]
      exact hfinWait (hsends (Or.inl hstate))
  | established =>
      simp only [Tsm.start, hstate]
      exact hfinWait (hsends (Or.inr hstate))
  | closeWait =>
      simp only [Tsm.start, hstate]
      exact hstart.ended hlisten (rule.refl _)
  | finWaitI | finWaitII | lastAck | closing | timeWait | closed =>
      simp only [Tsm.start, hstate]
      exact fail_ended _ hlive hlisten
  | init =>
      exact absurd hstate hinit
  | listen =>
      exact absurd hstate hlisten

/-- The state gives up after too many retries, or resends and waits on. -/
theorem retransOrClose_ended
    {limit : BitVec 8} {giveUp resend : Tsm → Tsm}
    (hlisten : (resend c).tcb.state ≠ .listen)
    (hgive : c.tcb.retransCnt = limit → EndedAs rule f (giveUp c))
    (hresend : Tracked f (tcpSndWinFull (resend c).tcb) (resend c)) :
    EndedAs rule f (retransOrClose env limit giveUp resend c) := by
  unfold retransOrClose
  split
  · rename_i hmany
    exact hgive (of_decide_eq_true hmany)
  · refine hresend.schedule.ended ?_ ?_
    · rw [onTcb_tcb, tsmScheduleRetransmission_eq]
      exact hlisten
    · rw [schedule_full]
      exact rule.refl _

/-- `tcp_handle_retrans_to()`. -/
theorem rtoTimer_ended
    (hcfg : ConfigOk env.cfg)
    (hinv : SendInv env.cfg anySlack tcb)
    (hlive : tcb.inHtable = true)
    (hlisten : tcb.state ≠ .listen)
    (hleaves :
      givesUp tcb.state = true → tcb.retransCnt + 1 = retryLimit env.cfg tcb.state →
        rule.leaves (flagsOf tcb) (tcpSndWinFull tcb)) :
    EndedAs rule (flagsOf tcb) (tcpHandleRetransTo env (Tsm.start tcb)) := by
  obtain ⟨hinit, hcloseWait, hclosed⟩ := hinv.resting hlive
  have hfired : Tracked (flagsOf tcb) (tcpSndWinFull tcb)
      ((Tsm.start tcb).onTcb fun tcb =>
        { tcb with onRtoList := false, retransCnt := tcb.retransCnt + 1 }) :=
    (Tracked.start hlive).onTcb rfl rfl
  have hqueue : QueueFlight env.cfg (anySlack.of tcb.state)
      { tcb with onRtoList := false, retransCnt := tcb.retransCnt + 1 } :=
    (hinv.bound hlive).of_eq rfl rfl rfl
  unfold tcpHandleRetransTo tsmRetransmissionTimeout
  cases hstate : tcb.state with
  | synSent | synRecv =>
      simp only [hstate, givesUp, retryLimit, forall_const] at hleaves
      simp only [Tsm.start, onTcb_tcb, hstate]
      exact retransOrClose_ended (by simp [Tsm.onTcb, hstate])
        (fun hmany => hfired.notifyAndClose (hleaves hmany)) (hfired.pkt _ _)
  | established =>
      simp only [hstate, givesUp, retryLimit, forall_const] at hleaves
      simp only [Tsm.start, onTcb_tcb, hstate]
      refine retransOrClose_ended ?_ (fun hmany => hfired.notifyAndClose (hleaves hmany))
        (tsmRetransData_tracked hfired hcfg hqueue)
      have hw := hcfg.winSize
      obtain ⟨heq, -⟩ := tcpDataRetrans_spec env
        (c := (Tsm.start tcb).onTcb fun tcb =>
          { tcb with onRtoList := false, retransCnt := tcb.retransCnt + 1 })
        hcfg.mtu hqueue.queue (by omega)
      have hstays : (tsmRetransData env ((Tsm.start tcb).onTcb fun tcb =>
          { tcb with onRtoList := false, retransCnt := tcb.retransCnt + 1 })).tcb.state =
            tcb.state := by
        unfold tsmRetransData notifyWinUnavail
        rw [heq]
        split <;> rfl
      exact fun hbad => hlisten (hstays.symm.trans hbad)
  | finWaitI =>
      simp only [hstate, givesUp, retryLimit, forall_const] at hleaves
      simp only [Tsm.start, onTcb_tcb, hstate]
      exact retransOrClose_ended (by simp [Tsm.onTcb, resendFin, hstate])
        (fun hmany => Tracked.enterClosed (c := Tsm.onTcb _ tcpTimerSlowCancel)
          (hfired.onTcb rfl rfl) (hleaves hmany)) (hfired.pkt _ _)
  | lastAck | closing =>
      simp only [hstate, givesUp, retryLimit, forall_const] at hleaves
      simp only [Tsm.start, onTcb_tcb, hstate]
      exact retransOrClose_ended (by simp [Tsm.onTcb, resendFin, hstate])
        (fun hmany => hfired.enterClosed (hleaves hmany)) (hfired.pkt _ _)
  | finWaitII | timeWait =>
      simp only [Tsm.start, onTcb_tcb, hstate]
      exact hfired.ended hlisten (rule.refl _)
  | listen =>
      exact absurd hstate hlisten
  | init =>
      exact absurd hstate hinit
  | closeWait =>
      exact absurd hstate hcloseWait
  | closed =>
      exact absurd hstate hclosed

/-- `tcp_handle_slow_to()`. -/
theorem slowTimer_ended
    (hlive : tcb.inHtable = true)
    (hlisten : tcb.state ≠ .listen)
    (hleaves : timesOut tcb.state = true → rule.leaves (flagsOf tcb) (tcpSndWinFull tcb)) :
    EndedAs rule (flagsOf tcb) (tcpHandleSlowTo env (Tsm.start tcb)) := by
  have hfired : Tracked (flagsOf tcb) (tcpSndWinFull tcb)
      ((Tsm.start tcb).onTcb fun tcb => { tcb with onSlowList := false }) :=
    (Tracked.start hlive).onTcb rfl rfl
  have hclosed : timesOut tcb.state = true →
      EndedAs rule (flagsOf tcb)
        (enterClosed ((Tsm.start tcb).onTcb fun tcb => { tcb with onSlowList := false })) :=
    fun hends => hfired.enterClosed (hleaves hends)
  unfold tcpHandleSlowTo
  cases hstate : tcb.state with
  | finWaitI | finWaitII | timeWait =>
      simp only [hstate, timesOut, forall_const] at hclosed
      simp only [Tsm.start, onTcb_tcb, hstate, tsmDispatchEvent, closeIn, if_true]
      exact hclosed
  | init | listen | synSent | synRecv | established | lastAck | closing | closeWait | closed =>
      simp only [Tsm.start, onTcb_tcb, hstate]
      exact hfired.ended hlisten (rule.refl _)

end Others

section Steps

variable {leave : Leave} {cfg : TcpConfig} {tcb : Tcb} {i : ConnInput}

/-- Every input of a session that is alive. -/
theorem connStep_ended
    (hcfg : ConfigOk cfg)
    (hinv : SendInv cfg anySlack tcb)
    (hlegal : ConnLegal tcb i)
    (hlive : tcb.inHtable = true)
    (hlisten : tcb.state ≠ .listen)
    (hkept : EdgesKept leave cfg tcb i) :
    Ended leave (flagsOf tcb) (connStep cfg tcb i) := by
  unfold connStep
  unfold ConnLegal at hlegal
  cases hevent : i.event with
  | «open» active =>
      simp only [hevent, hlive] at hlegal
      cases hlegal
  | accept syn =>
      simp only [hevent, hlive] at hlegal
      cases hlegal.1
  | send data =>
      simp only [hevent] at hlegal
      exact (tsmSend_ended (i.env cfg) data hcfg hinv hlive hlisten hlegal.2).ended
  | close =>
      simp only [EdgesKept, hevent] at hkept
      refine (tsmClose_ended cfg hlive hlisten (hinv.resting hlive).1 (fun hstate => ?_)
        fun hstate => ?_).ended
      · rw [hstate] at hkept
        exact hkept
      · rcases hstate with hstate | hstate
        · rw [hstate] at hkept
          exact hkept
        · rw [hstate] at hkept
          exact hkept
  | segment pcb =>
      simp only [EdgesKept, hevent] at hkept
      exact segment_ended hcfg hinv hlive hlisten hkept
  | rtoTimer =>
      simp only [EdgesKept, hevent] at hkept
      have hends : EndedAs (.counted leave) (flagsOf tcb)
          (tcpHandleRetransTo (i.env cfg) (Tsm.start tcb)) :=
        rtoTimer_ended hcfg hinv hlive hlisten hkept
      exact hends.ended
  | slowTimer =>
      simp only [EdgesKept, hevent] at hkept
      have hends : EndedAs (.counted leave) (flagsOf tcb)
          (tcpHandleSlowTo (i.env cfg) (Tsm.start tcb)) :=
        slowTimer_ended hlive hlisten hkept
      exact hends.ended
  | purge =>
      simp only [EdgesKept, hevent] at hkept
      exact ((Tracked.start hlive).silentClose (hkept hlisten)).ended

/-- A listening control block changes no gauge, and remains one until it is closed. -/
theorem connStep_listen
    (cfg : TcpConfig)
    (hlisten : tcb.state = .listen)
    (hgoes : opens i.event = false) :
    NoEdges (Tsm.start tcb) (connStep cfg tcb i) ∧
      ((connStep cfg tcb i).tcb.inHtable = false ∨
        (connStep cfg tcb i).tcb.state = .listen) := by
  unfold connStep
  cases hevent : i.event with
  | «open» active | accept syn =>
      simp [opens, hevent] at hgoes
  | send data =>
      simp only [tsmSend, Tsm.start, hlisten]
      exact ⟨NoEdges.of_out rfl, Or.inr hlisten⟩
  | close =>
      simp only [tsmClose, Tsm.start, hlisten]
      exact ⟨notifyAndClose_noEdges _, Or.inl (tcpSilentClose_dead _).1⟩
  | segment pcb =>
      simp only [tsmSegmentArrives, Tsm.start, hlisten, listenSegment]
      split
      · exact ⟨(NoEdges.of_out rfl).emit fun _ => rfl, Or.inr hlisten⟩
      · exact ⟨NoEdges.of_out rfl, Or.inr hlisten⟩
  | rtoTimer =>
      simp only [tcpHandleRetransTo, tsmRetransmissionTimeout, Tsm.start, onTcb_tcb, hlisten]
      exact ⟨NoEdges.of_out rfl, Or.inr trivial⟩
  | slowTimer =>
      simp only [tcpHandleSlowTo, Tsm.start, onTcb_tcb, hlisten]
      exact ⟨NoEdges.of_out rfl, Or.inr trivial⟩
  | purge =>
      exact ⟨tcpSilentClose_noEdges _, Or.inl (tcpSilentClose_dead _).1⟩

/-- The sending half after a SYN: no window is known yet. -/
def firstSnd : TcbSnd :=
  { una := 0, nxt := 1, wnd := 0, wl1 := 0, wl2 := 0, iss := 0 }

theorem flagsOf_first
    {tcb : Tcb}
    (hsnd : tcb.snd = firstSnd)
    (hbuf : tcb.rcvBuf = []) :
    flagsOf tcb = { winFull := false, missing := false } := by
  simp [flagsOf, tcpSndWinFull, hsnd, hbuf, firstSnd, segDIFF]

theorem flagsOf_schedule
    (cfg : TcpConfig) (tcb : Tcb) :
    flagsOf (tsmScheduleRetransmission cfg tcb) = flagsOf tcb := by
  rw [tsmScheduleRetransmission_eq]
  rfl

/-- Opening changes no gauge, and a session that is opened counts for nothing yet. -/
theorem connStep_opens
    (cfg : TcpConfig) (tcb : Tcb)
    (hopens : opens i.event = true) :
    flagSteps { winFull := false, missing := false } (connStep cfg tcb i).out =
        some { winFull := false, missing := false } ∧
      ((connStep cfg tcb i).tcb.state = .listen ∨
        flagsOf (connStep cfg tcb i).tcb = { winFull := false, missing := false }) := by
  unfold connStep
  cases hevent : i.event with
  | «open» active =>
      cases active with
      | true =>
          refine ⟨rfl, Or.inr ?_⟩
          have hopened := flagsOf_schedule cfg
            { tcb with
              state := .synSent
              active := true
              finRcvd := false
              rstRcvd := false
              rcvFinSeq := 0
              snd := firstSnd
              rcv := { nxt := 0, wnd := cfg.sockopt.tcpoWinSize, up := 0, irs := 0 }
              retransCnt := 0
              retrans := { dataMbufs := [], lastMbuf := none, totalSize := 0 }
              rcvBuf := []
              inHtable := true }
          exact hopened.trans (flagsOf_first rfl rfl)
      | false =>
          exact ⟨rfl, Or.inl rfl⟩
  | accept syn =>
      refine ⟨rfl, Or.inr ?_⟩
      have haccepted := flagsOf_schedule cfg
        { synReceived syn { listenerTcb (i.env cfg) with inHtable := true } with
          state := .synRecv
          snd := firstSnd }
      exact haccepted.trans (flagsOf_first rfl rfl)
  | send _ | close | segment _ | rtoTimer | slowTimer | purge =>
      simp [opens, hevent] at hopens

end Steps

end GaugeTransitions
end Warp17
