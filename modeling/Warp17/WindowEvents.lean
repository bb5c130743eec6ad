import Warp17.GaugeTransitions
import Warp17.TestSessions

/-!
# Notifications about the send window

A session waits in `TSTS_CL_NO_SND_WIN` or `TSTS_SRV_NO_SND_WIN` until TCP notifies that its send
window is available.  `tsm_cleanup_retrans_queu()` does so when an acknowledgement opens a full
window; a window field that is taken from a segment, our FIN, and its acknowledgement change a
full window without a notification.

**Results**
- `noWindowYet_step`: no window is known during the handshake.
- `connStep_windowEnded`: a transition that changes no full window unnoticed ends with the window
  full if it is counted as full.
- `window_events_sound`: in the runs of such transitions a session that waits has a full window,
  and every window that opens is notified.
-/

namespace Warp17
namespace WindowEvents

open GuardedRuns SequenceComparison MbufChains ControlBlock ReceiveBuffer SendQueue
open RetransmissionQueue TcpStateMachine TransitionPaths ConnectionRuns SendInvariants StateTraces
open SessionGauges GaugeTransitions TestCaseConfig TestStateMachine TestSessions

section Handshake

/-- No window is known before the handshake is complete. -/
def NoWindowYet (tcb : Tcb) : Prop :=
  tcb.inHtable = true → tcb.state = .synSent ∨ tcb.state = .synRecv → tcb.snd.wnd = 0

variable {cfg : TcpConfig} {env : TsmEnv} {pcb : Pcb} {tcb : Tcb} {c c' : Tsm}

theorem noWindowYet_of_state
    (hsent : tcb.state ≠ .synSent)
    (hrecv : tcb.state ≠ .synRecv) :
    NoWindowYet tcb := by
  rintro - (h | h)
  · exact absurd h hsent
  · exact absurd h hrecv

theorem noWindowYet_closed
    (c : Tsm) :
    NoWindowYet (enterClosed c).tcb := by
  intro hlive
  rw [enterClosed, (tcpSilentClose_dead _).1] at hlive
  cases hlive

theorem NoWindowYet.same
    (h : NoWindowYet c.tcb)
    (hquiet : Quiet c c') :
    NoWindowYet c'.tcb := by
  unfold NoWindowYet at h ⊢
  rw [hquiet.same.inHtable, hquiet.same.state, hquiet.same.snd]
  exact h

/-- Where the application may close, the text leaves the handshake for good. -/
theorem textDone_past
    {s : TcpState}
    (hstate : c.tcb.state = s)
    (hs : s = .established ∨ s = .synRecv)
    (hdone : TextDone env pcb c c') :
    c'.tcb.state = s ∨ c'.tcb.state = .finWaitI := by
  rw [← hstate] at hs
  rcases hdone.of_open hs with hquiet | ⟨-, c₁, -, hafter⟩
  · exact Or.inl (hquiet.same.state.trans hstate)
  · exact Or.inr (hafter.same.state.trans (enterFinWaitI_state _ _))

theorem enterTimeWait_noWindow
    (cfg : TcpConfig) (c : Tsm) :
    NoWindowYet (enterTimeWait cfg c).tcb := by
  unfold enterTimeWait
  simp only
  split
  · exact noWindowYet_closed _
  · refine noWindowYet_of_state ?_ ?_ <;>
      rw [onTcb_tcb, tcpTimerSlowSet_eq] <;>
      simp [setState, tcpTimerSlowCancel, tcpTimerRtoCancel]

/-- Every segment of a live session, state by state. -/
theorem segment_noWindow
    (hinv : SendInv env.cfg anySlack tcb)
    (hlive : tcb.inHtable = true)
    (hnone : NoWindowYet tcb) :
    NoWindowYet (tsmSegmentArrives env pcb (Tsm.start tcb)).tcb := by
  have hquiet : ∀ c', Quiet (Tsm.start tcb) c' → NoWindowYet c'.tcb :=
    fun c' hq => NoWindowYet.same (c := Tsm.start tcb) hnone hq
  have hpast : ∀ {s : TcpState} {c' : Tsm}, c'.tcb.state = s → s ≠ .synSent → s ≠ .synRecv →
      NoWindowYet c'.tcb := by
    intro s c' hs hsent hrecv
    exact noWindowYet_of_state (hs ▸ hsent) (hs ▸ hrecv)
  unfold tsmSegmentArrives
  cases hstate : tcb.state with
  | init | closeWait | closed =>
      obtain ⟨hinit, hcloseWait, hclosed⟩ := hinv.resting hlive
      contradiction
  | listen =>
      simp only [Tsm.start, hstate]
      exact listenSegment_elim (P := fun c' => NoWindowYet c'.tcb) hquiet
  | synSent =>
      obtain ⟨huna, hnxt, -⟩ := hinv.handshake hlive (Or.inl hstate)
      simp only [Tsm.start, hstate]
      refine synSentSegment_text_elim (P := fun c' => NoWindowYet c'.tcb) huna hnxt hquiet
        (fun c' _ => noWindowYet_closed _) (fun _ c' hq => ?_) fun _ c' hq => ?_
      · intro _ _
        rw [enterSynRecv, onTcb_tcb, tsmScheduleRetransmission_eq]
        change c'.tcb.snd.wnd = 0
        rw [hq.same.snd]
        exact hnone hlive (Or.inl hstate)
      · exact hpast hq.same.state (by simp [synAckDone, enterEstablished, setState])
          (by simp [synAckDone, enterEstablished, setState])
  | synRecv =>
      obtain ⟨huna, hnxt, -⟩ := hinv.handshake hlive (Or.inr hstate)
      simp only [Tsm.start, hstate]
      refine synRecvSegment_elim (P := fun c' => NoWindowYet c'.tcb) huna hnxt hquiet
        (fun c' _ => noWindowYet_closed _) fun _ c₀ _ c' _ => ⟨fun _ => ?_, fun _ => ?_⟩
      · exact hpast (s := .established) rfl (by simp) (by simp)
      · exact hpast (enterCloseWait_state _ _) (by simp) (by simp)
  | established =>
      simp only [Tsm.start, hstate]
      have hacked : (acked pcb false (Tsm.start tcb)).tcb.state = .established :=
        (acked_state pcb false (Tsm.start tcb)).trans hstate
      refine estabSegment_elim (P := fun c' => NoWindowYet c'.tcb) hquiet
        (fun c' _ => noWindowYet_closed _) (fun _ => ?_) (fun _ c' hdone => ?_)
        fun _ _ c' _ => hpast (enterCloseWait_state _ _) (by simp) (by simp)
      · exact hpast ((ackArrived_state pcb false (Tsm.start tcb)).trans hstate) (by simp) (by simp)
      · rcases textDone_past hacked (Or.inl rfl) hdone with hs | hs
        · exact hpast hs (by simp) (by simp)
        · exact hpast hs (by simp) (by simp)
  | finWaitI =>
      simp only [Tsm.start, hstate]
      have hacked : (acked pcb true (Tsm.start tcb)).tcb.state = .finWaitI :=
        (acked_state pcb true (Tsm.start tcb)).trans hstate
      refine finWaitISegment_elim (P := fun c' => NoWindowYet c'.tcb) hacked hquiet
        (fun c' _ => noWindowYet_closed _) (fun _ => ?_) (fun _ _ c' hq => ?_)
        (fun _ _ _ c' _ => hpast (enterClosing_state _ _) (by simp) (by simp))
        (fun _ _ _ c' hq => ?_)
        (fun _ _ c' _ => hpast (enterFinWaitII_state _ _) (by simp) (by simp))
        fun _ _ c' _ => enterTimeWait_noWindow _ _
      · exact hpast ((ackArrived_state pcb true (Tsm.start tcb)).trans hstate) (by simp) (by simp)
      · exact hpast (hq.same.state.trans hacked) (by simp) (by simp)
      · exact hpast (hq.same.state.trans hacked) (by simp) (by simp)
  | finWaitII =>
      simp only [Tsm.start, hstate]
      have hacked : (acked pcb false (Tsm.start tcb)).tcb.state = .finWaitII :=
        (acked_state pcb false (Tsm.start tcb)).trans hstate
      refine finWaitIISegment_elim (P := fun c' => NoWindowYet c'.tcb) hacked hquiet
        (fun c' _ => noWindowYet_closed _) (fun _ => ?_) (fun _ c' hq => ?_)
        fun _ c' _ c'' _ => enterTimeWait_noWindow _ _
      · exact hpast ((ackArrived_state pcb false (Tsm.start tcb)).trans hstate) (by simp) (by simp)
      · exact hpast (hq.same.state.trans hacked) (by simp) (by simp)
  | lastAck =>
      simp only [Tsm.start, hstate]
      exact lastAckSegment_elim (P := fun c' => NoWindowYet c'.tcb) hquiet
        fun c' _ => noWindowYet_closed _
  | closing =>
      simp only [Tsm.start, hstate]
      refine closingSegment_elim (P := fun c' => NoWindowYet c'.tcb) hquiet
        (fun c' _ => noWindowYet_closed _) (fun _ => ?_) (fun _ _ => ?_)
        fun _ _ => enterTimeWait_noWindow _ _
      · exact hpast ((ackArrived_state pcb true (Tsm.start tcb)).trans hstate) (by simp) (by simp)
      · exact hpast ((acked_state pcb true (Tsm.start tcb)).trans hstate) (by simp) (by simp)
  | timeWait =>
      simp only [Tsm.start, hstate]
      refine timeWaitSegment_elim (P := fun c' => NoWindowYet c'.tcb) hquiet
        (fun c' _ => noWindowYet_closed _) fun c' hq => ?_
      refine hpast (s := .timeWait) ?_ (by simp) (by simp)
      rw [onTcb_tcb, Function.comp_apply, tcpTimerSlowSet_eq]
      exact hq.same.state.trans hstate

theorem tsmSend_noWindow
    {data : TsmDataArg}
    (hcfg : ConfigOk env.cfg)
    (hinv : SendInv env.cfg anySlack tcb)
    (hlive : tcb.inHtable = true)
    (hdata : SendChainOk tcb data.tdaMbuf)
    (hnone : NoWindowYet tcb) :
    NoWindowYet (tsmSend env (Tsm.start tcb) data).tcb := by
  cases hstate : tcb.state with
  | established =>
      obtain ⟨hstays, -⟩ := tcpDataSend_state (c := Tsm.start tcb) hcfg.mtu
        (hinv.bound hlive).queue hdata
      have hsent : (tsmSend env (Tsm.start tcb) data).tcb.state = .established := by
        simp only [tsmSend, Tsm.start, hstate, tsmSendData]
        rw [notifyWinUnavail_tcb, onTcb_tcb, tsmScheduleRetransmission_eq]
        exact hstays.trans hstate
      refine noWindowYet_of_state ?_ ?_ <;> rw [hsent] <;> simp
  | closeWait =>
      exact absurd hstate (hinv.resting hlive).2.1
  | init | listen | synSent | synRecv | finWaitI | finWaitII | lastAck | closing | timeWait
  | closed =>
      simp only [tsmSend, Tsm.start, hstate]
      exact hnone

theorem tsmClose_noWindow
    (cfg : TcpConfig)
    (hnone : NoWindowYet tcb) :
    NoWindowYet (tsmClose cfg (Tsm.start tcb)).tcb := by
  unfold tsmClose
  cases hstate : tcb.state with
  | init | listen | synSent =>
      simp only [Tsm.start, hstate]
      exact noWindowYet_closed _
  | synRecv | established =>
      simp only [Tsm.start, hstate]
      refine noWindowYet_of_state ?_ ?_ <;> rw [enterFinWaitI_state] <;> simp
  | finWaitI | finWaitII | lastAck | closing | timeWait | closeWait | closed =>
      simp only [Tsm.start, hstate]
      exact hnone

/-- Giving up ends the session, and resending keeps its state and its window. -/
theorem retransOrClose_noWindow
    {limit : BitVec 8} {giveUp resend : Tsm → Tsm}
    (hgive : NoWindowYet (giveUp c).tcb)
    (hresend : NoWindowYet (resend c).tcb) :
    NoWindowYet (retransOrClose env limit giveUp resend c).tcb := by
  unfold retransOrClose
  split
  · exact hgive
  · rw [onTcb_tcb, tsmScheduleRetransmission_eq]
    exact hresend

theorem rtoTimer_noWindow
    (hcfg : ConfigOk env.cfg)
    (hinv : SendInv env.cfg anySlack tcb)
    (hlive : tcb.inHtable = true)
    (hnone : NoWindowYet tcb) :
    NoWindowYet (tcpHandleRetransTo env (Tsm.start tcb)).tcb := by
  have hat : At env.cfg tcb.state (anySlack.of tcb.state)
      ((Tsm.start tcb).onTcb fun tcb =>
        { tcb with onRtoList := false, retransCnt := tcb.retransCnt + 1 }).tcb :=
    ⟨hlive, rfl, (hinv.bound hlive).of_eq rfl rfl rfl⟩
  unfold tcpHandleRetransTo tsmRetransmissionTimeout
  cases hstate : tcb.state with
  | synSent | synRecv | finWaitI | lastAck | closing =>
      simp only [Tsm.start, onTcb_tcb, hstate]
      exact retransOrClose_noWindow (noWindowYet_closed _) hnone
  | established =>
      simp only [Tsm.start, onTcb_tcb, hstate]
      have hsent := (tsmRetransData_at hcfg hat).state.trans hstate
      refine retransOrClose_noWindow (noWindowYet_closed _) (noWindowYet_of_state ?_ ?_)
      · exact fun hbad => absurd (hsent.symm.trans hbad) (by simp)
      · exact fun hbad => absurd (hsent.symm.trans hbad) (by simp)
  | closeWait =>
      exact absurd hstate (hinv.resting hlive).2.1
  | init | listen | finWaitII | timeWait | closed =>
      simp only [Tsm.start, onTcb_tcb, hstate]
      refine noWindowYet_of_state ?_ ?_ <;> simp

theorem slowTimer_noWindow
    (hnone : NoWindowYet tcb) :
    NoWindowYet (tcpHandleSlowTo env (Tsm.start tcb)).tcb := by
  have hclose : ∀ s, NoWindowYet (closeIn s ((Tsm.start tcb).onTcb fun tcb =>
      { tcb with onSlowList := false })).tcb := by
    intro s
    unfold closeIn
    split
    · exact noWindowYet_closed _
    · exact hnone
  unfold tcpHandleSlowTo
  simp only
  split
  · exact hclose _
  · exact hclose _
  · exact hclose _
  all_goals exact hnone

theorem opened_noWindow
    (active : Bool) (c : Tsm) :
    NoWindowYet (tcpOpenV4Connection env active c).tcb := by
  intro _ _
  cases active with
  | true =>
      change (tsmScheduleRetransmission env.cfg _).snd.wnd = 0
      rw [tsmScheduleRetransmission_eq]
      rfl
  | false => rfl

theorem accepted_noWindow
    (syn : Pcb) :
    NoWindowYet (listenClone env syn (listenerTcb env)).tcb := by
  intro _ _
  change (tsmScheduleRetransmission env.cfg _).snd.wnd = 0
  rw [tsmScheduleRetransmission_eq]
  rfl

/-- Only the end of the handshake takes a window. -/
theorem noWindowYet_step
    {i : ConnInput}
    (hcfg : ConfigOk cfg)
    (hinv : SendInv cfg anySlack tcb)
    (hlegal : ConnLegal tcb i)
    (hnone : NoWindowYet tcb) :
    NoWindowYet (connStep cfg tcb i).tcb := by
  have hlive := live_of_goesOn hinv hlegal
  unfold connStep
  unfold ConnLegal at hlegal
  cases hevent : i.event with
  | «open» active =>
      exact opened_noWindow active (Tsm.start tcb)
  | accept syn =>
      exact accepted_noWindow syn
  | send data =>
      simp only [hevent] at hlegal
      exact tsmSend_noWindow hcfg hinv hlegal.1 hlegal.2 hnone
  | close =>
      exact tsmClose_noWindow cfg hnone
  | segment pcb =>
      simp only [hevent] at hlegal
      exact segment_noWindow hinv hlegal hnone
  | rtoTimer =>
      exact rtoTimer_noWindow hcfg hinv (hlive (by rw [hevent]; rfl)) hnone
  | slowTimer =>
      exact slowTimer_noWindow hnone
  | purge =>
      intro hl
      rw [(tcpSilentClose_dead _).1] at hl
      cases hl

/-- A window is never full during the handshake. -/
theorem NoWindowYet.not_full
    (hnone : NoWindowYet tcb)
    (hinv : SendInv cfg anySlack tcb)
    (hlive : tcb.inHtable = true)
    (hstate : tcb.state = .synSent ∨ tcb.state = .synRecv) :
    tcpSndWinFull tcb = false := by
  obtain ⟨huna, hnxt, -⟩ := hinv.handshake hlive hstate
  have hflight : tcb.snd.nxt - tcb.snd.una = 1 := by
    rw [hnxt, huna]
    abel
  rw [tcpSndWinFull, segDIFF, hflight, hnone hlive hstate]
  rfl

end Handshake

section Windows

/-- How a transition may end: what is counted as full is full. -/
def windowRule : EndRule where
  rests := fun counted full => counted = true → full = true
  leaves := fun g full => g.winFull = true → full = true
  refl := fun _ h => h

/-- A full window that an acknowledgement leaves full is still full at the end of the transition,
and no connection with a full window is closed.  The window field of a segment, our FIN, and its
acknowledgement may change it. -/
def WindowKept (cfg : TcpConfig) (tcb : Tcb) (i : ConnInput) : Prop :=
  match i.event with
  | .close => tcb.state = .established → tcpSndWinFull tcb = false
  | .segment pcb =>
      match tcb.state with
      | .established =>
          ReachesText tcb pcb false → stillFull tcb pcb false = true →
            estabFull (i.env cfg) pcb (acked pcb false (Tsm.start tcb)) = true
      | .finWaitI =>
          ReachesText tcb pcb true → stillFull tcb pcb true = true →
            finWaitIFull pcb (acked pcb true (Tsm.start tcb)) = true
      | .finWaitII =>
          ReachesText tcb pcb false → stillFull tcb pcb false = true →
            tcpSndWinFull (acked pcb false (Tsm.start tcb)).tcb = true
      | .closing =>
          ReachesText tcb pcb true → stillFull tcb pcb true = true →
            tcpSndWinFull (acked pcb true (Tsm.start tcb)).tcb = true
      | .init | .listen | .synSent | .synRecv | .lastAck | .timeWait | .closeWait | .closed => True
  | .open _ | .accept _ | .send _ | .rtoTimer | .slowTimer | .purge => True

instance (cfg : TcpConfig) (tcb : Tcb) (i : ConnInput) : Decidable (WindowKept cfg tcb i) := by
  unfold WindowKept
  exact match i.event, tcb.state with
    | .close, _ => inferInstance
    | .segment _, .established | .segment _, .finWaitI | .segment _, .finWaitII
    | .segment _, .closing => inferInstance
    | .segment _, .init | .segment _, .listen | .segment _, .synSent | .segment _, .synRecv
    | .segment _, .lastAck | .segment _, .timeWait | .segment _, .closeWait
    | .segment _, .closed => inferInstance
    | .open _, _ | .accept _, _ | .send _, _ | .rtoTimer, _ | .slowTimer, _ | .purge, _ =>
        inferInstance

variable {cfg : TcpConfig} {tcb : Tcb} {i : ConnInput}

/-- A session that goes on and one that is closed are held to the same. -/
theorem windowRule_settled
    {still closes : Bool} {rcvBuf : List TcbBufHdr} {full : Bool}
    (h : still = true → full = true) :
    windowRule.Settled still closes rcvBuf full := by
  unfold EndRule.Settled
  split <;> exact h

theorem segment_windowEnded
    {pcb : Pcb}
    (hcfg : ConfigOk cfg)
    (hinv : SendInv cfg anySlack tcb)
    (hnone : NoWindowYet tcb)
    (hlive : tcb.inHtable = true)
    (hlisten : tcb.state ≠ .listen)
    (hevent : i.event = .segment pcb)
    (hkept : WindowKept cfg tcb i) :
    EndedAs windowRule (flagsOf tcb) (tsmSegmentArrives (i.env cfg) pcb (Tsm.start tcb)) := by
  have hat := hinv.at hlive
  have hslack : (anySlack.of tcb.state) < 2 ^ 16 := by
    cases tcb.state <;> decide
  have hleaves : windowRule.leaves (flagsOf tcb) (tcpSndWinFull tcb) := fun h => h
  unfold WindowKept at hkept
  rw [hevent] at hkept
  unfold tsmSegmentArrives
  cases hstate : tcb.state with
  | init | closeWait | closed =>
      obtain ⟨hinit, hcloseWait, hclosed⟩ := hinv.resting hlive
      contradiction
  | listen =>
      exact absurd hstate hlisten
  | synSent =>
      have hfull := hnone.not_full hinv hlive (Or.inl hstate)
      simp only [Tsm.start, hstate]
      refine synSentSegment_ended hinv hlive hstate (fun _ => hleaves) fun _ => ?_
      exact windowRule_settled fun h => absurd h (by simp [hfull])
  | synRecv =>
      have hfull := hnone.not_full hinv hlive (Or.inr hstate)
      simp only [Tsm.start, hstate]
      refine synRecvSegment_ended hinv hlive hstate (fun _ => hleaves) fun _ _ _ h => ?_
      exact absurd h (by simp [hfull])
  | established =>
      simp only [hstate] at hkept hat hslack
      simp only [Tsm.start, hstate]
      exact estabSegment_ended hcfg hat hslack (fun _ => hleaves) hkept
  | finWaitI =>
      simp only [hstate] at hkept hat hslack
      simp only [Tsm.start, hstate]
      exact finWaitISegment_ended hcfg hat hslack (fun _ => hleaves)
        fun hreach => windowRule_settled (hkept hreach)
  | finWaitII =>
      simp only [hstate] at hkept hat hslack
      simp only [Tsm.start, hstate]
      exact finWaitIISegment_ended hcfg hat hslack (fun _ => hleaves)
        fun hreach => windowRule_settled (hkept hreach)
  | closing =>
      simp only [hstate] at hkept hat hslack
      simp only [Tsm.start, hstate]
      exact closingSegment_ended hcfg hat hslack (fun _ => hleaves)
        fun hreach => windowRule_settled (hkept hreach)
  | lastAck =>
      simp only [Tsm.start, hstate]
      exact lastAckSegment_ended hlive hstate (fun _ => hleaves) fun _ _ => hleaves
  | timeWait =>
      simp only [Tsm.start, hstate]
      exact timeWaitSegment_ended hlive hstate fun _ => hleaves

/-- Every input of a session that is alive. -/
theorem live_windowEnded
    (hcfg : ConfigOk cfg)
    (hinv : SendInv cfg anySlack tcb)
    (hnone : NoWindowYet tcb)
    (hlegal : ConnLegal tcb i)
    (hlive : tcb.inHtable = true)
    (hlisten : tcb.state ≠ .listen)
    (hkept : WindowKept cfg tcb i) :
    EndedAs windowRule (flagsOf tcb) (connStep cfg tcb i) := by
  have hleaves : windowRule.leaves (flagsOf tcb) (tcpSndWinFull tcb) := fun h => h
  unfold connStep
  unfold ConnLegal at hlegal
  cases hevent : i.event with
  | «open» active =>
      simp only [hevent, hlive] at hlegal
      cases hlegal
  | accept syn =>
      simp only [hevent, hlive] at hlegal
      cases hlegal.1
  | send data =>
      simp only [hevent] at hlegal
      exact tsmSend_ended (i.env cfg) data hcfg hinv hlive hlisten hlegal.2
  | close =>
      simp only [WindowKept, hevent] at hkept
      refine tsmClose_ended cfg hlive hlisten (hinv.resting hlive).1 (fun _ => hleaves)
        fun hstate hfull => ?_
      rcases hstate with hstate | hstate
      · exact absurd hfull (by simp [hnone.not_full hinv hlive (Or.inr hstate)])
      · exact absurd hfull (by simp [hkept hstate])
  | segment pcb =>
      exact segment_windowEnded hcfg hinv hnone hlive hlisten hevent hkept
  | rtoTimer =>
      exact rtoTimer_ended hcfg hinv hlive hlisten fun _ _ => hleaves
  | slowTimer =>
      exact slowTimer_ended hlive hlisten fun _ => hleaves
  | purge =>
      exact (Tracked.start hlive).silentClose hleaves

/-- A listening control block has no window. -/
theorem listen_full
    (cfg : TcpConfig)
    (hlisten : tcb.state = .listen)
    (hgoes : opens i.event = false) :
    tcpSndWinFull (connStep cfg tcb i).tcb = tcpSndWinFull tcb := by
  unfold connStep
  cases hevent : i.event with
  | «open» active | accept syn =>
      simp [opens, hevent] at hgoes
  | send data =>
      simp only [tsmSend, Tsm.start, hlisten]
      rfl
  | close =>
      simp only [tsmClose, Tsm.start, hlisten, notifyAndClose, enterClosed]
      exact tcpSilentClose_full _
  | segment pcb =>
      simp only [tsmSegmentArrives, Tsm.start, hlisten]
      refine listenSegment_elim (P := fun c' => tcpSndWinFull c'.tcb = tcpSndWinFull tcb) ?_
      intro c' hquiet
      rw [tcpSndWinFull, hquiet.same.snd]
      rfl
  | rtoTimer =>
      simp only [tcpHandleRetransTo, tsmRetransmissionTimeout, Tsm.start, onTcb_tcb, hlisten]
      rfl
  | slowTimer =>
      simp only [tcpHandleSlowTo, Tsm.start, onTcb_tcb, hlisten]
      rfl
  | purge =>
      exact tcpSilentClose_full _

theorem live_of_opens
    (hinv : SendInv cfg anySlack tcb)
    (hlegal : ConnLegal tcb i)
    (hgoes : opens i.event = false) :
    tcb.inHtable = true := by
  cases hevent : i.event with
  | «open» active | accept syn =>
      simp [opens, hevent] at hgoes
  | purge =>
      simpa only [ConnLegal, hevent] using hlegal
  | send _ | close | segment _ | rtoTimer | slowTimer =>
      exact live_of_goesOn hinv hlegal (by rw [hevent]; rfl)

/-- An input that opens nothing ends with the window full if it is counted as full. -/
theorem connStep_windowEnded
    (hcfg : ConfigOk cfg)
    (hinv : SendInv cfg anySlack tcb)
    (hnone : NoWindowYet tcb)
    (hlegal : ConnLegal tcb i)
    (hgoes : opens i.event = false)
    (hkept : WindowKept cfg tcb i) :
    ∃ g, flagSteps (flagsOf tcb) (connStep cfg tcb i).out = some g ∧
      (g.winFull = true → tcpSndWinFull (connStep cfg tcb i).tcb = true) := by
  by_cases hlisten : tcb.state = .listen
  · refine ⟨flagsOf tcb, (connStep_listen cfg hlisten hgoes).1.flagSteps_eq, fun hfull => ?_⟩
    rw [listen_full cfg hlisten hgoes]
    exact hfull
  · have hlive := live_of_opens hinv hlegal hgoes
    cases live_windowEnded hcfg hinv hnone hlegal hlive hlisten hkept with
    | rests _ _ flags full =>
        exact ⟨_, flags, full⟩
    | closed _ may flags =>
        exact ⟨_, flags, may⟩

end Windows

section Waiting

variable {delays : TestDelays} {test : Option TestSmState}

/-- The test state machine waits for the send window. -/
def WaitsForWindow (test : Option TestSmState) : Prop :=
  test = some .clNoSndWin ∨ test = some .srvNoSndWin

instance (test : Option TestSmState) : Decidable (WaitsForWindow test) :=
  inferInstanceAs (Decidable (_ ∨ _))

/-- Only `TSTE_NO_SND_WIN` makes a session wait. -/
theorem waits_dispatch
    {state : TestSmState} {event : TestSmEvent}
    (hwaits : WaitsForWindow (dispatch delays state event)) :
    event = .noSndWin := by
  by_contra hother
  revert hwaits
  unfold dispatch
  cases state <;> cases event <;>
    first
      | exact absurd rfl hother
      | simp [testSmDispatchEvent, clientToInit, clientToOpen, clientOpening, clientOpen,
          clientSending, clientNoSndWin, clientToClose, clientClosing, clientClosed, serverOpen,
          serverSending, serverNoSndWin, serverClosing, listenState, purgedState, connectedClient,
          goto, stay, testSmEnterState, WaitsForWindow]

/-- A notification that makes a session wait, or leaves it waiting. -/
theorem waits_notif
    {state : TestSmState} {n : TestNotif}
    (hwaits : WaitsForWindow (notify delays state n)) :
    n = .sessWinUnavail ∨ n = .appClose ∧ WaitsForWindow (some state) := by
  cases n with
  | sessWinUnavail =>
      exact Or.inl rfl
  | appClose =>
      exact Or.inr ⟨rfl, hwaits⟩
  | sessListen | sessSrvConnected =>
      simp [notify, testNotification, testSmEnterState, WaitsForWindow] at hwaits
  | tmrFired | sessConnecting | sessConnected | sessConnectedImm | sessClosing | sessClosed
  | sessWinAvail | appSendStart | appSendStop =>
      exact absurd (waits_dispatch hwaits) (by simp)

theorem waits_notified_one
    {n : TestNotif}
    (hwaits : WaitsForWindow (notified delays test [n])) :
    n = .sessWinUnavail ∨ n = .appClose ∧ WaitsForWindow test := by
  cases test with
  | none =>
      simp [notified, WaitsForWindow] at hwaits
  | some state =>
      have hone : WaitsForWindow (notify delays state n) := by
        simpa [notified] using hwaits
      exact waits_notif hone

/-- Nothing that the application notifies makes a session wait. -/
theorem waits_app
    {sends : List AppSend}
    (hwaits : WaitsForWindow (notified delays test (sends.map AppSend.notif))) :
    WaitsForWindow test := by
  induction sends using List.reverseRecOn with
  | nil =>
      simpa using hwaits
  | append_singleton sends send ih =>
      rw [List.map_append, notified_append] at hwaits
      rcases waits_notified_one hwaits with hn | ⟨-, hwaits⟩
      · cases send <;> simp [AppSend.notif] at hn
      · exact ih hwaits

/-- Whether a session may wait after an effect of TCP. -/
def mayWait (waits : Bool) : TcpOutput → Bool
  | .notif .sessWinUnavail => true
  | .notif .appClose => waits
  | .notif _ => false
  | .pkt _ | .deliver _ | .enter _ | .asserted | .missingSeq _ => waits

theorem waits_output
    {waits : Bool} {o : TcpOutput}
    (htest : WaitsForWindow test → waits = true)
    (hwaits : WaitsForWindow (notified delays test (outputNotif o))) :
    mayWait waits o = true := by
  cases o with
  | notif n =>
      rcases waits_notified_one hwaits with rfl | ⟨rfl, hkeeps⟩
      · rfl
      · exact htest hkeeps
  | pkt _ | deliver _ | enter _ | asserted | missingSeq _ =>
      exact htest (by simpa [outputNotif] using hwaits)

/-- The effects of a transition, with what the application notifies in between. -/
theorem waits_outputs
    {app : Nat → List AppSend} {k : Nat} {out : List TcpOutput} {waits : Bool}
    (htest : WaitsForWindow test → waits = true)
    (hwaits : WaitsForWindow (notified delays test (sessionNotifs app k out))) :
    out.foldl mayWait waits = true := by
  induction out generalizing test k waits with
  | nil =>
      exact htest (waits_app hwaits)
  | cons o out ih =>
      rw [sessionNotifs, notified_append, notified_append] at hwaits
      exact ih (waits_output fun h => htest (waits_app h)) hwaits

/-- A session that may wait is counted. -/
theorem mayWait_counted
    {f g : Flags} {out : List TcpOutput} {waits : Bool}
    (hflags : flagSteps f out = some g)
    (hf : waits = true → f.winFull = true)
    (hwaits : out.foldl mayWait waits = true) :
    g.winFull = true := by
  induction out generalizing f waits with
  | nil =>
      cases hflags
      exact hf hwaits
  | cons o out ih =>
      rw [flagSteps, List.foldlM_cons, Option.bind_eq_bind, Option.bind_eq_some_iff] at hflags
      obtain ⟨f', hstep, hrest⟩ := hflags
      refine ih hrest (fun hmay => ?_) hwaits
      cases o with
      | notif n =>
          cases n <;> simp [mayWait] at hmay <;> simp [flagStep] at hstep
          · rw [← hstep.2]
          · rw [← hstep]
            exact hf hmay
      | missingSeq b =>
          cases b <;> simp [flagStep] at hstep <;> rw [← hstep.2] <;> exact hf hmay
      | pkt _ | deliver _ | enter _ | asserted =>
          cases hstep
          exact hf hmay

/-- A window that is discounted is notified. -/
theorem winAvail_of_flagSteps
    {f g : Flags} {out : List TcpOutput}
    (hflags : flagSteps f out = some g)
    (hf : f.winFull = true)
    (hg : g.winFull = false) :
    .notif .sessWinAvail ∈ out := by
  induction out generalizing f with
  | nil =>
      cases hflags
      rw [hf] at hg
      cases hg
  | cons o out ih =>
      rw [flagSteps, List.foldlM_cons, Option.bind_eq_bind, Option.bind_eq_some_iff] at hflags
      obtain ⟨f', hstep, hrest⟩ := hflags
      by_cases ho : o = .notif .sessWinAvail
      · rw [ho]
        exact List.mem_cons_self
      · refine List.mem_cons_of_mem _ (ih hrest ?_)
        cases o with
        | notif n =>
            cases n <;> simp_all [flagStep]
        | missingSeq b =>
            cases b <;> simp [flagStep] at hstep <;> rw [← hstep.2] <;> exact hf
        | pkt _ | deliver _ | enter _ | asserted =>
            cases hstep
            exact hf

theorem mem_sessionNotifs
    {app : Nat → List AppSend} {k : Nat} {out : List TcpOutput} {n : TestNotif}
    (h : .notif n ∈ out) :
    n ∈ sessionNotifs app k out := by
  induction out generalizing k with
  | nil =>
      simp at h
  | cons o out ih =>
      rw [sessionNotifs]
      rcases List.mem_cons.1 h with rfl | hmem
      · simp [outputNotif]
      · simp [ih hmem]

end Waiting

section Runs

variable (cfg : TcpConfig) (delays : TestDelays)

/-- The notifications of a step. -/
def stepNotifs (s : TestSession) : SessionInput → List TestNotif
  | .tcp i app => sessionNotifs app 0 (connStep cfg s.tcb i).out
  | .app n => [n.notif]
  | .tmrFired => [.tmrFired]
  | .purge => []

/-- What can happen to a session in its present state. -/
def SessionLegal (s : TestSession) : SessionInput → Prop
  | .tcp i _ => ConnLegal s.tcb i
  | .app _ | .tmrFired | .purge => True

/-- The step changes no full window unnoticed. -/
def SessionWindowKept (s : TestSession) : SessionInput → Prop
  | .tcp i _ => WindowKept cfg s.tcb i
  | .app _ | .tmrFired | .purge => True

/-- The step opens the control block for a new connection. -/
def startsConnection : SessionInput → Bool
  | .tcp i _ => opens i.event
  | .app _ | .tmrFired | .purge => false

/-- After the step a session that waits has a full window, and a window that the step opens was
notified. -/
structure WindowEventsSound (s : TestSession) (i : SessionInput) : Prop where
  waits :
    WaitsForWindow (sessionStep cfg delays s i).test →
      tcpSndWinFull (sessionStep cfg delays s i).tcb = true
  notified :
    startsConnection i = false → tcpSndWinFull s.tcb = true →
      tcpSndWinFull (sessionStep cfg delays s i).tcb = false →
        .sessWinAvail ∈ stepNotifs cfg s i

instance (s : TestSession) (i : SessionInput) : Decidable (SessionLegal s i) := by
  cases i <;> unfold SessionLegal <;> infer_instance

instance (s : TestSession) (i : SessionInput) : Decidable (SessionWindowKept cfg s i) := by
  cases i <;> unfold SessionWindowKept <;> infer_instance

/-- Between the steps: no window before the handshake, and a session that waits has a full one. -/
structure WindowInv (s : TestSession) : Prop where
  send : SendInv cfg anySlack s.tcb
  noWindow : NoWindowYet s.tcb
  waits : WaitsForWindow s.test → tcpSndWinFull s.tcb = true

variable {cfg : TcpConfig} {delays : TestDelays} {s : TestSession}

theorem windowInv_start :
    WindowInv cfg (TestSession.start delays) := by
  refine ⟨blankTcb_sendInv, by rintro ⟨⟩, fun hwaits => ?_⟩
  simp only [TestSession.start, testSmEnterState] at hwaits
  split at hwaits <;> simp [WaitsForWindow] at hwaits

/-- Opening ends any waiting. -/
theorem opens_waits
    {tcb : Tcb} {i : ConnInput}
    (hopens : opens i.event = true) :
    (connStep cfg tcb i).out.foldl mayWait true = false := by
  unfold connStep
  cases hevent : i.event with
  | «open» active =>
      cases active <;> rfl
  | accept syn =>
      rfl
  | send _ | close | segment _ | rtoTimer | slowTimer | purge =>
      simp [opens, hevent] at hopens

/-- An event of TCP, and what the application notifies on the way. -/
theorem tcp_sound
    {i : ConnInput} (app : Nat → List AppSend)
    (hcfg : ConfigOk cfg)
    (hinv : WindowInv cfg s)
    (hlegal : ConnLegal s.tcb i)
    (hkept : WindowKept cfg s.tcb i) :
    WindowEventsSound cfg delays s (.tcp i app) := by
  cases hopens : opens i.event with
  | true =>
      refine ⟨fun hwaits => ?_, fun hno => ?_⟩
      · have hmay : (connStep cfg s.tcb i).out.foldl mayWait true = true :=
          waits_outputs (fun _ => rfl) hwaits
        rw [opens_waits hopens] at hmay
        cases hmay
      · exact absurd (hno.symm.trans hopens) (by simp)
  | false =>
      obtain ⟨g, hflags, hfull⟩ :=
        connStep_windowEnded hcfg hinv.send hinv.noWindow hlegal hopens hkept
      refine ⟨fun hwaits => ?_, fun _ hbefore hafter => ?_⟩
      · have hmay : (connStep cfg s.tcb i).out.foldl mayWait (tcpSndWinFull s.tcb) = true :=
          waits_outputs hinv.waits hwaits
        exact hfull (mayWait_counted hflags (fun h => h) hmay)
      · refine mem_sessionNotifs (winAvail_of_flagSteps hflags hbefore ?_)
        by_contra hcounted
        exact absurd ((hfull (by simpa using hcounted)).symm.trans hafter) (by simp)

/-- The application and the timer on their own, and a purge. -/
theorem waits_elsewhere
    {i : SessionInput}
    (hother : ∀ j app, i ≠ .tcp j app)
    (hwaits : WaitsForWindow (sessionStep cfg delays s i).test) :
    WaitsForWindow s.test := by
  cases i with
  | tcp j app =>
      exact absurd rfl (hother j app)
  | app n =>
      exact @waits_app delays s.test [n] hwaits
  | tmrFired =>
      rcases waits_notified_one hwaits with hn | ⟨hn, -⟩ <;> cases hn
  | purge =>
      cases htest : s.test with
      | none =>
          simp [sessionStep, htest, WaitsForWindow] at hwaits
      | some state =>
          simp only [sessionStep, htest, Option.bind_some] at hwaits
          exact absurd (waits_dispatch hwaits) (by simp)

theorem step_sound
    {i : SessionInput}
    (hcfg : ConfigOk cfg)
    (hinv : WindowInv cfg s)
    (hlegal : SessionLegal s i)
    (hkept : SessionWindowKept cfg s i) :
    WindowEventsSound cfg delays s i := by
  cases i with
  | tcp j app =>
      exact tcp_sound app hcfg hinv hlegal hkept
  | app _ | tmrFired | purge =>
      refine ⟨fun hwaits => hinv.waits (waits_elsewhere (by simp) hwaits), ?_⟩
      intro _ hbefore hafter
      exact absurd (hbefore.symm.trans hafter) (by simp)

theorem windowInv_step
    {i : SessionInput}
    (hcfg : ConfigOk cfg)
    (hinv : WindowInv cfg s)
    (hlegal : SessionLegal s i)
    (hkept : SessionWindowKept cfg s i) :
    WindowInv cfg (sessionStep cfg delays s i) := by
  have hsound : WindowEventsSound cfg delays s i := step_sound hcfg hinv hlegal hkept
  cases i with
  | tcp j app =>
      exact ⟨sendInv_step hcfg hinv.send hlegal (anySlack_fits _ _),
        noWindowYet_step hcfg hinv.send hlegal hinv.noWindow, hsound.waits⟩
  | app _ | tmrFired | purge =>
      exact ⟨hinv.send, hinv.noWindow, hsound.waits⟩

/--
A run whose steps change no full window unnoticed: a session that waits has a full window all
the way, and every window that opens is notified before the step ends.
-/
theorem window_events_sound
    {is : List SessionInput}
    (hcfg : ConfigOk cfg)
    (hrun :
      Guarded (sessionStep cfg delays) (fun s i => SessionLegal s i ∧ SessionWindowKept cfg s i)
        (TestSession.start delays) is) :
    Guarded (sessionStep cfg delays) (WindowEventsSound cfg delays)
      (TestSession.start delays) is :=
  guarded_invariant (WindowInv cfg)
    (fun _ _ hinv hok => windowInv_step hcfg hinv hok.1 hok.2)
    (fun _ _ hinv hok => step_sound hcfg hinv hok.1 hok.2) windowInv_start hrun

/-- A client is opened without delay; the server answers with a window of four bytes, which the
application fills. -/
def filledWindow : List SessionInput :=
  [.tcp (.plain (.open true)) fun _ => [],
   .tcp (.plain (.segment { plainPcb 100 1 { syn := true, ack := true } [] with rxWin := 4 }))
     fun _ => [],
   .app .start,
   .tcp (.plain (plainSend 7 [1, 2, 3, 4])) fun _ => []]

/-- The server acknowledges nothing new, and has room again. -/
def windowUpdate : SessionInput :=
  .tcp (.plain (.segment { plainPcb 101 1 { ack := true } [] with rxWin := 1024 })) fun _ => []

/-- The server takes the four bytes. -/
def windowAcked : SessionInput :=
  .tcp (.plain (.segment { plainPcb 101 5 { ack := true } [] with rxWin := 4 })) fun _ => []

def promptDelays : TestDelays :=
  { tcInitDelay := some 0, tcUptime := none, tcDowntime := none }

/-- An acknowledgement of all the data wakes the session. -/
theorem window_events_sound_acked :
    ConfigOk defaultConfig ∧
      Guarded (sessionStep defaultConfig promptDelays)
        (fun s i => SessionLegal s i ∧ SessionWindowKept defaultConfig s i)
        (TestSession.start promptDelays) (filledWindow ++ [windowAcked]) ∧
      Guarded (sessionStep defaultConfig promptDelays)
        (WindowEventsSound defaultConfig promptDelays)
        (TestSession.start promptDelays) (filledWindow ++ [windowAcked]) := by
  have hrun : Guarded (sessionStep defaultConfig promptDelays)
      (fun s i => SessionLegal s i ∧ SessionWindowKept defaultConfig s i)
      (TestSession.start promptDelays) (filledWindow ++ [windowAcked]) := by decide +kernel
  exact ⟨defaultConfig_ok, hrun, window_events_sound defaultConfig_ok hrun⟩

/-- A window that is only updated opens unnoticed: the session waits with room in the window. -/
theorem window_update_unnoticed :
    Guarded (sessionStep defaultConfig promptDelays) SessionLegal
        (TestSession.start promptDelays) (filledWindow ++ [windowUpdate]) ∧
      WaitsForWindow (run (sessionStep defaultConfig promptDelays)
        (TestSession.start promptDelays) (filledWindow ++ [windowUpdate])).test ∧
      tcpSndWinFull (run (sessionStep defaultConfig promptDelays)
        (TestSession.start promptDelays) (filledWindow ++ [windowUpdate])).tcb = false ∧
      stepNotifs defaultConfig (run (sessionStep defaultConfig promptDelays)
        (TestSession.start promptDelays) filledWindow) windowUpdate = [] := by
  decide +kernel

end Runs

end WindowEvents
end Warp17
