import Warp17.SentStream
import Warp17.SessionTimers

/-!
# The FIN follows the data

A close may come while data is queued, sent or not.  The FIN should come after all of it, and
both should be sent again until they are acknowledged or the retry limit is reached.

The FIN is numbered as the first unsent byte, and a timeout in one of the closing states sends
the FIN alone.  `KeepsFin` leaves out the steps that reach these defects:

- our FIN goes out while bytes of the queue are unsent;
- the timer expires after the FIN while bytes of the queue are unacknowledged;
- an ACK empties the queue and leaves the FIN, which cancels the timer;
- the defects of the handshake and of two FINs that miscount the numbers in flight.

**Results**
- `stepOk_of_keeps`: every other step keeps the packets in order and the timer running.
- `fin_follows_data`: in the runs made of such steps the FIN follows all queued data.
-/

namespace Warp17
namespace FinAfterData

open GuardedRuns SerialArithmetic SequenceComparison MbufChains ControlBlock SendQueue
open RetransmissionQueue TcpStateMachine TransitionPaths ConnectionRuns
open SendInvariants SendSequence SessionTimers TransmittedNumbers SentStream

section Timers

/-- The states in which the FIN is resent. -/
def ResendsFin (s : TcpState) : Prop :=
  s = .finWaitI ∨ s = .lastAck ∨ s = .closing

instance (s : TcpState) : Decidable (ResendsFin s) :=
  inferInstanceAs (Decidable (_ ∨ _))

/-- What is not acknowledged has the retransmission timer running. -/
def Armed (tcb : Tcb) : Prop :=
  tcb.inHtable = true → tcb.state = .established ∨ ResendsFin tcb.state →
    HoldsUnacked tcb → tcb.onRtoList = true

/-- The transition is in order, and the timer is running where it has to. -/
structure Done (h : History) (c : Tsm) : Prop where
  mid : Mid h c
  armed : Armed c.tcb

variable {cfg : TcpConfig} {h : History} {c c' : Tsm} {s : TcpState}

theorem armed_of_dead
    {tcb : Tcb}
    (hdead : tcb.inHtable = false) :
    Armed tcb := by
  intro hlive
  rw [hdead] at hlive
  cases hlive

theorem armed_of_other
    {tcb : Tcb}
    (hstate : tcb.state = s)
    (hother : ¬ (s = .established ∨ ResendsFin s)) :
    Armed tcb := by
  intro _ hyes
  rw [hstate] at hyes
  exact absurd hyes hother

theorem Armed.same
    {t t' : Tcb}
    (ha : Armed t)
    (hsame : SameSend t t') :
    Armed t' := by
  have hholds : HoldsUnacked t' ↔ HoldsUnacked t :=
    holdsUnacked_of_eq (by rw [hsame.snd]) (by rw [hsame.snd]) hsame.retrans
  intro hlive hstate hyes
  rw [hsame.inHtable] at hlive
  rw [hsame.state] at hstate
  rw [hsame.onRtoList]
  exact ha hlive hstate (hholds.1 hyes)

theorem armed_of_timerInv
    {tcb : Tcb}
    (ht : TimerInv tcb) :
    Armed tcb := by
  rintro - (hs | hs | hs | hs) hholds
  · exact ht.estab hs hholds
  · exact (ht.finWaitI hs).2 hholds
  · exact (ht.lastAck (Or.inl hs)).2
  · exact (ht.lastAck (Or.inr hs)).2

/-- Scheduling arms the timer, whatever the state. -/
theorem armed_schedule
    {tcb : Tcb}
    (hcfg : ConfigOk cfg)
    (htimers : TimersInRange cfg)
    (hqueue : QueueOk cfg.sockopt.tcpoWinSize.toNat tcb.retrans) :
    Armed (tsmScheduleRetransmission cfg tcb) := by
  rintro - - hholds
  refine schedule_arms tcb hcfg htimers hqueue ?_
  rw [tsmScheduleRetransmission_eq] at hholds
  exact hholds

theorem done_quiet
    (hs : Streamed h)
    (ha : Armed h.tcb)
    (hq : Quiet (Tsm.start h.tcb) c) :
    Done h c :=
  ⟨mid_quiet hs hq, Armed.same ha hq.same⟩

theorem done_dead
    (hn : Numberless h c)
    (hs : Streamed h)
    (hdead : c.tcb.inHtable = false) :
    Done h c :=
  ⟨hn.mid_dead hs hdead, armed_of_dead hdead⟩

theorem done_closed
    (hn : Numberless h c)
    (hs : Streamed h) :
    Done h (TcpStateMachine.enterClosed c) :=
  ⟨hn.mid_closed hs, armed_of_dead (tcpSilentClose_dead _).1⟩

theorem done_notifyAndClose
    (hn : Numberless h c)
    (hs : Streamed h) :
    Done h (notifyAndClose c) :=
  ⟨hn.mid_notifyAndClose hs, armed_of_dead (tcpSilentClose_dead _).1⟩

/-- An idle connection has nothing for the timer. -/
theorem armed_of_idle
    {tcb : Tcb}
    (hidle : tcb.snd.una = tcb.snd.nxt)
    (hempty : queued tcb = []) :
    Armed tcb := by
  rintro - - (hne | hne)
  · exact absurd hidle hne
  · exact absurd hempty hne

end Timers

section Steps

/-- Our FIN goes out in `TS_ESTABLISHED`. -/
def SendsFin (cfg : TcpConfig) (tcb : Tcb) (i : ConnInput) : Prop :=
  tcb.state = .established ∧
    match i.event with
    | .close => True
    | .segment pcb =>
        ReachesAck tcb pcb ∧
          ackUsable pcb (ackArrived pcb false (Tsm.start tcb)).tcb = true ∧
            (textAsksClose i.answer pcb (acked pcb false (Tsm.start tcb)).tcb = true ∨
              finTaken (i.env cfg) pcb (acked pcb false (Tsm.start tcb)) = true)
    | .open _ | .accept _ | .send _ | .rtoTimer | .slowTimer | .purge => False

/-- The segment leaves the connection in a state that does not start the timer again. -/
def LeavesFin (cfg : TcpConfig) (tcb : Tcb) (i : ConnInput) (pcb : Pcb) : Prop :=
  (tcb.state = .finWaitI ∧
      finNext (i.env cfg) pcb (acked pcb true (Tsm.start tcb)) = false) ∨
    tcb.state = .closing

/-- The steps that do not reach one of the defects. -/
structure KeepsFin (cfg : TcpConfig) (tcb : Tcb) (i : ConnInput) : Prop where
  /-- `TS_SYN_RECV` goes on with an ACK of our SYN only -/
  synUnacked :
    ∀ pcb, tcb.state = .synRecv → i.event = .segment pcb → ReachesAck tcb pcb →
      pcb.recvAck ≠ tcb.snd.una
  /-- the application does not close before the handshake is complete -/
  closeEarly : tcb.state = .synRecv → i.event ≠ .close
  /-- nor while it is completed -/
  closeMidway :
    ∀ pcb, tcb.state = .synRecv → i.event = .segment pcb → ¬ SynRecvCloses i.answer pcb tcb
  /-- the callback does not close when a FIN is processed after it -/
  closeTwice :
    ∀ pcb, tcb.state = .established → i.event = .segment pcb →
      ¬ ClosesBeforeFin (i.env cfg) pcb (Tsm.start tcb)
  /-- the last byte in the queue is not acknowledged without the FIN after it -/
  finLeft :
    ∀ pcb, LeavesFin cfg tcb i pcb → i.event = .segment pcb → ReachesAck tcb pcb →
      segGT pcb.recvAck tcb.snd.una = true → segLE pcb.recvAck tcb.snd.nxt = true →
      pcb.recvAck ≠ tcb.snd.nxt → (pcb.recvAck - tcb.snd.una).toNat ≠ (queued tcb).length
  /-- our FIN goes out when no byte in the queue is left to be sent -/
  unsent : SendsFin cfg tcb i → (queued tcb).length ≤ flight tcb
  /-- our FIN is resent when it is all that is not acknowledged -/
  resend :
    i.event = .rtoTimer → ResendsFin tcb.state →
      tcb.retransCnt + 1 ≠ cfg.sockopt.tcpoRetryCnt →
        queued tcb = [] ∧ tcb.snd.una ≠ tcb.snd.nxt

/-- The invariant: the bytes of the queue, the timer, and what was sent. -/
structure FinInv (cfg : TcpConfig) (h : History) : Prop where
  seq : SeqInv cfg h
  armed : Armed h.tcb
  streamed : Streamed h

variable {cfg : TcpConfig} {h : History} {i : ConnInput}

/-- After the FIN there is one number more in flight than there are bytes in the queue. -/
theorem FinInv.flight_closing
    (hinv : FinInv cfg h)
    (hcfg : ConfigOk cfg)
    (hlive : h.tcb.inHtable = true)
    (hafter : AfterFin h.tcb.state)
    (hbusy : h.tcb.snd.una ≠ h.tcb.snd.nxt) :
    flight h.tcb = (queued h.tcb).length + 1 ∧
      h.tcb.snd.una + BitVec.ofNat 32 (queued h.tcb).length =
        seqAt (h.tcb.snd.iss + 1) h.accepted.length := by
  have hw := hcfg.winSize
  have hb : (queued h.tcb).length ≤ cfg.sockopt.tcpoWinSize.toNat :=
    (hinv.seq.send.bound hlive).queue.bounded
  rcases (hinv.seq.seq hlive).closing hafter with hpos | ⟨hidle, -⟩
  · have hend := Positioned.end_eq hpos
    refine ⟨?_, hend⟩
    have hsub : h.tcb.snd.nxt - h.tcb.snd.una =
        BitVec.ofNat 32 ((queued h.tcb).length + 1) := by
      rw [(hinv.streamed.closing hlive hafter).1, ← hend, BitVec.ofNat_add]
      abel
    rw [flight, hsub, BitVec.toNat_ofNat, Nat.mod_eq_of_lt (by omega)]
  · exact absurd hidle hbusy

theorem KeepsFin.sequence
    (hk : KeepsFin cfg h.tcb i)
    (hcfg : ConfigOk cfg)
    (hinv : FinInv cfg h)
    (hlegal : ConnLegal h.tcb i) :
    KeepsSequence cfg h.tcb i := by
  refine ⟨hk.synUnacked, hk.closeEarly, hk.closeMidway, hk.closeTwice, ?_⟩
  intro pcb hstate hevent _ _ hbusy
  rw [ConnLegal, hevent] at hlegal
  obtain ⟨hflight, -⟩ := hinv.flight_closing hcfg hlegal (Or.inl hstate) hbusy
  omega

/-- Before the FIN, when no byte in the queue is left to be sent. -/
theorem FinInv.all_sent
    (hinv : FinInv cfg h)
    (hlive : h.tcb.inHtable = true)
    (hstate : h.tcb.state = .established)
    (hunsent : (queued h.tcb).length ≤ flight h.tcb) :
    h.tcb.snd.nxt = seqAt (h.tcb.snd.iss + 1) h.accepted.length ∧
      ∀ k < h.accepted.length, Carried h.tcb.snd.iss h.accepted h.sent k := by
  have hbound := (hinv.seq.send.bound hlive).flight
  have hzero : finOnly.of h.tcb.state = 0 := by
    rw [hstate]
    rfl
  have heq : flight h.tcb = (queued h.tcb).length := by
    omega
  refine ⟨?_, fun k hk => hinv.streamed.estab hlive hstate k (by omega)⟩
  rw [← Positioned.end_eq ((hinv.seq.seq hlive).estab hstate), ← heq, una_add_flight]

theorem synSent_done
    {pcb : Pcb}
    (env : TsmEnv)
    (hinv : FinInv cfg h)
    (hlive : h.tcb.inHtable = true)
    (hstate : h.tcb.state = .synSent) :
    Done h (synSentSegment env pcb (Tsm.start h.tcb)) := by
  have hs := hinv.streamed
  obtain ⟨huna, hnxt, hempty⟩ := hinv.seq.send.handshake hlive (Or.inl hstate)
  have hnone := ((hinv.seq.seq hlive).opening (Or.inr (Or.inl hstate))).1
  have hbefore : ¬ AfterFin h.tcb.state := by
    rw [hstate]
    decide
  refine synSentSegment_elim huna hnxt (fun c' hq => done_quiet hs hinv.armed hq)
    (fun c' hq => done_notifyAndClose ((numberless_start h).quiet hq) hs) ?_ ?_
  · rintro - c' hq
    have hn := ((numberless_start h).quiet hq).silent (silent_enterSynRecv env.cfg c')
    have hiss : (enterSynRecv env.cfg c').tcb.snd.iss = c'.tcb.snd.iss := by
      rw [enterSynRecv, onTcb_tcb, tsmScheduleRetransmission_eq]
      rfl
    have hnew : (enterSynRecv env.cfg c').tcb.state = .synRecv := by
      rw [enterSynRecv, onTcb_tcb, tsmScheduleRetransmission_eq]
      rfl
    exact ⟨(hn hiss).mid_open hs hlive hbefore hnew (by decide) (fun hno => by cases hno),
      armed_of_other hnew (by decide)⟩
  · intro c' hq c₁ hdone c₂ hq₂
    have hacked : Numberless h (synAcked pcb c') := by
      have hn := ((numberless_start h).quiet hq).incUna
      exact (hn.silent (silent_setSndWnd pcb _) rfl).silent (silent_notif _ _) rfl
    rcases hdone.of_synSent (hq.same.state.trans hstate) with
      hkept | ⟨-, c₀, hbefore₀, hafter⟩
    · have hn := hacked.quiet hkept
      have hn₁ : Numberless h (enterEstablished (c₁.onTcb tcpTimerRtoCancel)) :=
        hn.silent ((silent_onTcb rfl rfl).trans (silent_setState _ _)) rfl
      have hsnd : c₂.tcb.snd = (synAcked pcb c').tcb.snd :=
        hq₂.same.snd.trans hkept.same.snd
      have hidle : c₂.tcb.snd.una = c₂.tcb.snd.nxt := by
        rw [hsnd]
        change c'.tcb.snd.una + 1 = c'.tcb.snd.nxt
        rw [hq.same.snd]
        change h.tcb.snd.una + 1 = h.tcb.snd.nxt
        rw [huna, hnxt]
      have hnothing : queued c₂.tcb = [] := by
        have hretrans : c₂.tcb.retrans = c'.tcb.retrans :=
          hq₂.same.retrans.trans hkept.same.retrans
        rw [queued, hretrans, hq.same.retrans]
        exact hempty
      refine ⟨(hn₁.quiet hq₂).mid_open (s := .established) hs hlive hbefore hq₂.same.state
        (by decide) fun _ k hk => ?_, armed_of_idle hidle hnothing⟩
      rw [flight_eq_zero.2 hidle, hnone] at hk
      simp at hk
    · -- the callback closed a connection that was not established yet
      have hn := (hacked.quiet hbefore₀).silent (silent_notifyAndClose c₀)
        (tcpSilentClose_iss _)
      have hestab : Silent c₁ (enterEstablished (c₁.onTcb tcpTimerRtoCancel)) :=
        (silent_onTcb rfl rfl).trans (silent_setState _ _)
      have hn₁ := (hn.quiet hafter).silent hestab rfl
      refine done_dead (hn₁.quiet hq₂) hs ?_
      rw [hq₂.same.inHtable]
      exact hafter.same.inHtable.trans (tcpSilentClose_dead _).1

theorem synRecv_done
    {pcb : Pcb}
    (env : TsmEnv)
    (hcfg : ConfigOk env.cfg)
    (htimers : TimersInRange env.cfg)
    (hinv : FinInv env.cfg h)
    (hlive : h.tcb.inHtable = true)
    (hstate : h.tcb.state = .synRecv)
    (hanswer : env.answer = i.answer)
    (hevent : i.event = .segment pcb)
    (hkeeps : KeepsFin env.cfg h.tcb i) :
    Done h (synRecvSegment env pcb (Tsm.start h.tcb)) := by
  have hs := hinv.streamed
  obtain ⟨huna, hnxt, hempty⟩ := hinv.seq.send.handshake hlive (Or.inr hstate)
  have hnone := ((hinv.seq.seq hlive).opening (Or.inr (Or.inr hstate))).1
  have hbefore : ¬ AfterFin h.tcb.state := by
    rw [hstate]
    decide
  refine synRecvSegment_elim huna hnxt (fun c' hq => done_quiet hs hinv.armed hq)
    (fun c' hq => done_notifyAndClose ((numberless_start h).quiet hq) hs) ?_
  intro hreach c₀ hc₀ c' hdone
  have hcloses : ¬ SynRecvCloses env.answer pcb h.tcb := by
    rw [hanswer]
    exact hkeeps.closeMidway pcb hstate hevent
  have hc₀' := hc₀
  obtain rfl : c₀ = incUna (Tsm.start h.tcb) := by
    rcases hc₀ with ⟨hold, -⟩ | ⟨-, hnew⟩
    · exact absurd hold (hkeeps.synUnacked pcb hstate hevent hreach)
    · exact hnew
  have hkept : Quiet ((incUna (Tsm.start h.tcb)).onTcb (setSndWnd pcb)) c' := by
    rcases hdone.of_open (Or.inr hstate) with hkept | ⟨hasks, -⟩
    · exact hkept
    · exact absurd (synRecvCloses_of huna hnxt hreach hc₀' hasks) hcloses
  have hn : Numberless h c' :=
    ((numberless_start h).incUna.silent (silent_setSndWnd pcb _) rfl).quiet hkept
  have hidle : c'.tcb.snd.una = c'.tcb.snd.nxt := by
    rw [hkept.same.snd]
    change h.tcb.snd.una + 1 = h.tcb.snd.nxt
    rw [huna, hnxt]
  have hnothing : queued c'.tcb = [] := by
    rw [queued, hkept.same.retrans]
    exact hempty
  have hflight := flight_eq_zero.2 hidle
  refine ⟨fun _ => ?_, fun _ => ?_⟩
  · have hn₁ : Numberless h (enterEstablished (c'.onTcb tcpTimerRtoCancel)) :=
      hn.silent ((silent_onTcb rfl rfl).trans (silent_setState _ _)) rfl
    refine ⟨hn₁.mid_open (s := .established) hs hlive hbefore rfl (by decide) fun _ k hk => ?_,
      armed_of_idle hidle hnothing⟩
    have hsame : flight (enterEstablished (c'.onTcb tcpTimerRtoCancel)).tcb = flight c'.tcb := rfl
    rw [hsame, hflight, hnone] at hk
    simp at hk
  · have hqueue : QueueOk env.cfg.sockopt.tcpoWinSize.toNat c'.tcb.retrans := by
      rw [hkept.same.retrans]
      exact (hinv.seq.send.bound hlive).queue
    have hbound : QueueFlight env.cfg 0 c'.tcb := ⟨hqueue, by omega⟩
    have hready : Ready h c' := by
      refine ⟨hn, hkept.same.inHtable.trans hlive, ?_, by omega, ?_⟩
      · rw [hnxt, hnone, List.length_nil, seqAt_zero]
      · rw [hnone]
        simp
    exact ⟨(hready.enterCloseWait env.cfg).mid hs, armed_of_timerInv
      (enterCloseWait_timed (c := c'.tcpNotif .sessClosing) hcfg htimers
        (hbound.of_eq rfl rfl rfl) (by decide))⟩

theorem estab_done
    {pcb : Pcb}
    (hcfg : ConfigOk cfg)
    (htimers : TimersInRange cfg)
    (hinv : FinInv cfg h)
    (hlive : h.tcb.inHtable = true)
    (hstate : h.tcb.state = .established)
    (hevent : i.event = .segment pcb)
    (hkeeps : KeepsFin cfg h.tcb i) :
    Done h (estabSegment (i.env cfg) pcb (Tsm.start h.tcb)) := by
  have hs := hinv.streamed
  have hqueue := (hinv.seq.send.bound hlive).queue
  have hbefore : ¬ AfterFin h.tcb.state := by
    rw [hstate]
    decide
  have hat : At cfg .established 0 (Tsm.start h.tcb).tcb := by
    have hat := hinv.seq.send.at hlive
    rw [hstate] at hat
    exact hat
  have hat' := hat.acked pcb false hcfg
  have hn := numberless_acked pcb false hcfg hqueue
  have hrto : HoldsUnacked (acked pcb false (Tsm.start h.tcb)).tcb →
      (acked pcb false (Tsm.start h.tcb)).tcb.onRtoList = true := by
    rw [acked_holdsUnacked, (acked_fields pcb false _).2.2.2.1]
    exact ackArrived_rto_estab hcfg hat.bound (hinv.armed hlive (Or.inl hstate))
  -- an ACK takes as many bytes out of the queue as numbers out of flight
  have hestab : ∀ c', Quiet (acked pcb false (Tsm.start h.tcb)) c' → Done h c' := by
    intro c' hq
    refine ⟨(hn.quiet hq).mid_open hs hlive hbefore (hq.same.state.trans hat'.state) (by decide)
      fun _ k hk => hs.estab hlive hstate k ?_, Armed.same (fun _ _ => hrto) hq.same⟩
    have hcount := @acked_flight cfg (Tsm.start h.tcb) pcb false hcfg hqueue
    rw [queued, flight, hq.same.retrans, hq.same.snd] at hk
    simp only [queued, flight, Tsm.start] at hcount hk ⊢
    omega
  have hready : SendsFin cfg h.tcb i → ∀ c', Quiet (acked pcb false (Tsm.start h.tcb)) c' →
      Ready h c' ∧ QueueFlight cfg 0 (c'.tcpNotif .sessClosing).tcb := by
    intro hsends c' hq
    obtain ⟨hnxt, hall⟩ := hinv.all_sent hlive hstate (hkeeps.unsent hsends)
    have hbound := hat'.bound.same hq.same
    have hlt := hbound.flight_lt hcfg
    exact ⟨⟨hn.quiet hq, hq.same.inHtable.trans hat'.live, hnxt, by omega, hall⟩, hbound⟩
  refine estabSegment_text_elim (fun c' hq => done_quiet hs hinv.armed hq)
    (fun c' hq => done_notifyAndClose ((numberless_start h).quiet hq) hs) ?_ ?_
  · intro hunusable
    rw [ackArrived_of_unusable hcfg hat.bound (by decide) hunusable]
    exact done_quiet hs hinv.armed (Quiet.refl _)
  · intro hreach husable c' hq
    have hsends : textAsksClose i.answer pcb (acked pcb false (Tsm.start h.tcb)).tcb = true ∨
        finTaken (i.env cfg) pcb (acked pcb false (Tsm.start h.tcb)) = true →
          SendsFin cfg h.tcb i := by
      intro hwhy
      refine ⟨hstate, ?_⟩
      rw [hevent]
      exact ⟨hreach, husable, hwhy⟩
    cases hasks : textAsksClose i.answer pcb (acked pcb false (Tsm.start h.tcb)).tcb with
    | false =>
        have htext := (@receiveAndAck_quiet (i.env cfg) pcb _ hasks).trans hq
        refine ⟨fun _ => hestab c' htext, fun htaken => ?_⟩
        obtain ⟨hall, hbound⟩ := hready (hsends (Or.inr htaken)) c' htext
        exact ⟨(hall.enterCloseWait cfg).mid hs,
          armed_of_timerInv (enterCloseWait_timed hcfg htimers hbound (by decide))⟩
    | true =>
        refine ⟨fun _ => ?_, fun htaken => ?_⟩
        · have hdone := (receiveAndAck_done (i.env cfg) pcb
            (acked pcb false (Tsm.start h.tcb))).trans_quiet hq
          rcases hdone.of_open (Or.inl hat'.state) with hkept | ⟨-, c₁, hfirst, hlast⟩
          · exact hestab c' hkept
          · obtain ⟨hall, hbound⟩ := hready (hsends (Or.inl hasks)) c₁ hfirst
            have harmed := armed_of_timerInv
              (enterFinWaitI_timed hcfg htimers hbound (by decide))
            exact ⟨((hall.enterFinWaitI cfg).quiet hlast).mid hs, harmed.same hlast.same⟩
        · obtain ⟨hrcv, hbuf⟩ := acked_receiving pcb false (Tsm.start h.tcb)
          rw [textAsksClose_congr i.answer pcb hrcv hbuf] at hasks
          exact absurd ⟨hreach, husable, hasks, htaken⟩ (hkeeps.closeTwice pcb hstate hevent)

/-- After the FIN a segment makes us send nothing that has a number. -/
theorem done_timeWait
    {c : Tsm}
    (hn : Numberless h c)
    (hs : Streamed h)
    (hlive : h.tcb.inHtable = true)
    (hbefore : AfterFin h.tcb.state) :
    Done h (enterTimeWait cfg c) := by
  have hcancel : Numberless h
      ((setState .timeWait c).onTcb (tcpTimerSlowCancel ∘ tcpTimerRtoCancel)) :=
    (hn.silent (silent_setState .timeWait c) rfl).silent (silent_onTcb rfl rfl) rfl
  unfold enterTimeWait
  simp only
  split
  · exact done_closed hcancel hs
  · have hiss : ∀ tcb, (tcpTimerSlowSet cfg cfg.sockopt.tcpoTwaitTo tcb).snd = tcb.snd := by
      intro tcb
      rw [tcpTimerSlowSet_eq]
    have hstate : (((setState .timeWait c).onTcb (tcpTimerSlowCancel ∘ tcpTimerRtoCancel)).onTcb
        (tcpTimerSlowSet cfg cfg.sockopt.tcpoTwaitTo)).tcb.state = .timeWait := by
      rw [onTcb_tcb, tcpTimerSlowSet_eq]
      rfl
    refine ⟨(hcancel.silent (silent_slowSet cfg _ _) ?_).mid_afterFin hs hlive hbefore hstate
      (by decide), armed_of_other hstate (by decide)⟩
    rw [onTcb_tcb, hiss]

/-- With our FIN in flight, what else an ACK leaves in flight is in the queue. -/
theorem FinInv.acked_flight
    {pcb : Pcb} {finSent : Bool}
    (hcfg : ConfigOk cfg)
    (hinv : FinInv cfg h)
    (hlive : h.tcb.inHtable = true)
    (hafter : AfterFin h.tcb.state)
    (hbusy :
      (acked pcb finSent (Tsm.start h.tcb)).tcb.snd.una ≠
        (acked pcb finSent (Tsm.start h.tcb)).tcb.snd.nxt) :
    flight (acked pcb finSent (Tsm.start h.tcb)).tcb =
      (queued (acked pcb finSent (Tsm.start h.tcb)).tcb).length + 1 := by
  have hqueue := (hinv.seq.send.bound hlive).queue
  have hcount := @SendSequence.acked_flight cfg (Tsm.start h.tcb) pcb finSent hcfg hqueue
  have hbefore : h.tcb.snd.una ≠ h.tcb.snd.nxt := by
    intro hidle
    obtain ⟨huna, hnxt, -⟩ := acked_fields pcb finSent (Tsm.start h.tcb)
    rw [huna, hnxt, @ackArrived_idle cfg (Tsm.start h.tcb) pcb finSent hcfg hqueue hidle] at hbusy
    exact hbusy hidle
  have hflight := (hinv.flight_closing hcfg hlive hafter hbefore).1
  change _ + (queued h.tcb).length = flight h.tcb + _ at hcount
  omega

/-- Where the clean-up does not empty the queue under the FIN, the timer goes on. -/
theorem FinInv.acked_armed
    {pcb : Pcb}
    (hcfg : ConfigOk cfg)
    (hinv : FinInv cfg h)
    (hlive : h.tcb.inHtable = true)
    (hstate : ResendsFin h.tcb.state)
    (hleft :
      segGT pcb.recvAck h.tcb.snd.una = true → segLE pcb.recvAck h.tcb.snd.nxt = true →
        pcb.recvAck ≠ h.tcb.snd.nxt →
        (pcb.recvAck - h.tcb.snd.una).toNat ≠ (queued h.tcb).length)
    (hours : ourFinAcked pcb (acked pcb true (Tsm.start h.tcb)).tcb = false) :
    Armed (acked pcb true (Tsm.start h.tcb)).tcb := by
  obtain ⟨huna, hnxt, -, honrto, -⟩ := acked_fields pcb true (Tsm.start h.tcb)
  have hbound : QueueFlight cfg 1 (Tsm.start h.tcb).tcb := by
    refine (hinv.seq.send.bound hlive).mono ?_
    rcases hstate with hs | hs | hs <;> (rw [hs]; decide)
  rw [ourFinAcked, huna, hnxt, ← ourFinAcked] at hours
  rintro - -
  rw [acked_holdsUnacked, honrto]
  exact ackArrived_rto_fin hcfg hbound (by decide) (hinv.armed hlive (Or.inr hstate)) hleft
    (Or.inr hours)

theorem finWaitI_done
    {pcb : Pcb}
    (hcfg : ConfigOk cfg)
    (htimers : TimersInRange cfg)
    (hinv : FinInv cfg h)
    (hlive : h.tcb.inHtable = true)
    (hstate : h.tcb.state = .finWaitI)
    (hevent : i.event = .segment pcb)
    (hkeeps : KeepsFin cfg h.tcb i) :
    Done h (finWaitISegment (i.env cfg) pcb (Tsm.start h.tcb)) := by
  have hs := hinv.streamed
  have hbefore : AfterFin h.tcb.state := Or.inl hstate
  have hat := hinv.seq.send.at hlive
  rw [hstate] at hat
  have hat₀ : At cfg .finWaitI 1 (Tsm.start h.tcb).tcb := hat
  have hat' := hat₀.acked pcb true hcfg
  have hn := numberless_acked pcb true hcfg hat.bound.queue
  have hslow : ∀ {c : Tsm}, Numberless h c → Numberless h (c.onTcb tcpTimerSlowCancel) :=
    fun hn => hn.silent (silent_onTcb rfl rfl) rfl
  have hidle : ourFinAcked pcb (acked pcb true (Tsm.start h.tcb)).tcb = true →
      Armed (incUna (acked pcb true (Tsm.start h.tcb))).tcb := by
    intro hours
    obtain ⟨hone, hne⟩ := ourFinAcked_flight hours
    have hflight := hinv.acked_flight hcfg hlive hbefore hne
    have hdec := flight_incUna hne
    refine armed_of_idle (flight_eq_zero.1 (by omega)) (List.length_eq_zero_iff.1 ?_)
    change (queued (acked pcb true (Tsm.start h.tcb)).tcb).length = 0
    omega
  refine finWaitISegment_text_elim hat'.state (fun c' hq => done_quiet hs hinv.armed hq)
    (fun c' hq => done_closed ((hslow (numberless_start h)).quiet hq) hs) ?_ ?_ ?_ ?_ ?_ ?_
  · intro hunusable
    rw [ackArrived_of_unusable hcfg hat₀.bound (by decide) hunusable]
    exact done_quiet hs hinv.armed (Quiet.refl _)
  · intro hreach hours hnone c' hq
    have harmed := hinv.acked_armed hcfg hlive (Or.inl hstate)
      (hkeeps.finLeft pcb (Or.inl ⟨hstate, hnone⟩) hevent hreach) hours
    exact ⟨(hn.quiet hq).mid_afterFin hs hlive hbefore (hq.same.state.trans hat'.state)
      (by decide), harmed.same hq.same⟩
  · rintro - - - c' hq
    have hiss : ∀ c : Tsm, (enterClosing cfg c).tcb.snd.iss = c.tcb.snd.iss := by
      intro c
      rw [enterClosing, onTcb_tcb, tsmScheduleRetransmission_eq]
      rfl
    have hqueue : QueueOk cfg.sockopt.tcpoWinSize.toNat
        (setState .closing (c'.onTcb tcpTimerSlowCancel)).tcb.retrans :=
      (hat'.bound.same hq.same).queue
    exact ⟨((hslow (hn.quiet hq)).silent (silent_enterClosing _ _) (hiss _)).mid_afterFin hs hlive
      hbefore (enterClosing_state cfg _) (by decide), armed_schedule hcfg htimers hqueue⟩
  · rintro - hours - c' hq
    exact ⟨(hn.incUna.quiet hq).mid_afterFin hs hlive hbefore (hq.same.state.trans hat'.state)
      (by decide), (hidle hours).same hq.same⟩
  · rintro - - c' hq
    have hiss : ∀ c : Tsm, (enterFinWaitII cfg c).tcb.snd.iss = c.tcb.snd.iss := by
      intro c
      rw [enterFinWaitII, onTcb_tcb, tcpTimerSlowSet_eq]
      rfl
    have hnew := enterFinWaitII_state cfg (c'.onTcb tcpTimerSlowCancel)
    exact ⟨((hslow (hn.incUna.quiet hq)).silent (silent_enterFinWaitII _ _) (hiss _)).mid_afterFin
      hs hlive hbefore hnew (by decide), armed_of_other hnew (by decide)⟩
  · rintro - - c' hq
    exact done_timeWait (hslow (hn.incUna.quiet hq)) hs hlive hbefore

theorem finWaitII_done
    {pcb : Pcb}
    (env : TsmEnv)
    (hcfg : ConfigOk cfg)
    (hinv : FinInv cfg h)
    (hlive : h.tcb.inHtable = true)
    (hstate : h.tcb.state = .finWaitII) :
    Done h (finWaitIISegment env pcb (Tsm.start h.tcb)) := by
  have hs := hinv.streamed
  have hbefore : AfterFin h.tcb.state := Or.inr (Or.inl hstate)
  have hat := hinv.seq.send.at hlive
  rw [hstate] at hat
  have hat₀ : At cfg .finWaitII 0 (Tsm.start h.tcb).tcb := hat
  have hstate' := (hat₀.acked pcb false hcfg).state
  have hn := numberless_acked pcb false hcfg hat.bound.queue
  have hslow : ∀ {c : Tsm}, Numberless h c → Numberless h (c.onTcb tcpTimerSlowCancel) :=
    fun hn => hn.silent (silent_onTcb rfl rfl) rfl
  refine finWaitIISegment_elim hstate' (fun c' hq => done_quiet hs hinv.armed hq)
    (fun c' hq => done_closed ((hslow (numberless_start h)).quiet hq) hs) ?_ ?_ ?_
  · rintro -
    have hnew := (hat₀.ackArrived pcb false hcfg).state
    exact ⟨(numberless_ackArrived pcb false hcfg hat.bound.queue).mid_afterFin hs hlive hbefore
      hnew (by decide), armed_of_other hnew (by decide)⟩
  · rintro - c' hq
    have hnew := hq.same.state.trans hstate'
    exact ⟨(hn.quiet hq).mid_afterFin hs hlive hbefore hnew (by decide),
      armed_of_other hnew (by decide)⟩
  · rintro - c' hq c'' hq'
    exact done_timeWait ((hslow (hn.quiet hq)).quiet hq') hs hlive hbefore

theorem closing_done
    {pcb : Pcb}
    (hcfg : ConfigOk cfg)
    (hinv : FinInv cfg h)
    (hlive : h.tcb.inHtable = true)
    (hstate : h.tcb.state = .closing)
    (hevent : i.event = .segment pcb)
    (hkeeps : KeepsFin cfg h.tcb i) :
    Done h (closingSegment (i.env cfg) pcb (Tsm.start h.tcb)) := by
  have hs := hinv.streamed
  have hbefore : AfterFin h.tcb.state := by
    rw [hstate]
    decide
  have hat := hinv.seq.send.at hlive
  rw [hstate] at hat
  have hat₀ : At cfg .closing 1 (Tsm.start h.tcb).tcb := hat
  have hn := numberless_acked pcb true hcfg hat.bound.queue
  refine closingSegment_elim (fun c' hq => done_quiet hs hinv.armed hq)
    (fun c' hq => done_closed ((numberless_start h).quiet hq) hs) ?_ ?_ ?_
  · intro hunusable
    rw [ackArrived_of_unusable hcfg hat₀.bound (by decide) hunusable]
    exact done_quiet hs hinv.armed (Quiet.refl _)
  · intro hreach hours
    exact ⟨hn.mid_afterFin hs hlive hbefore (hat₀.acked pcb true hcfg).state (by decide),
      hinv.acked_armed hcfg hlive (Or.inr (Or.inr hstate))
        (hkeeps.finLeft pcb (Or.inr hstate) hevent hreach) hours⟩
  · rintro - -
    exact done_timeWait (hn.silent (silent_onTcb rfl rfl) rfl) hs hlive hbefore

theorem timeWait_done
    {pcb : Pcb}
    (env : TsmEnv)
    (hinv : FinInv cfg h)
    (hlive : h.tcb.inHtable = true)
    (hstate : h.tcb.state = .timeWait) :
    Done h (timeWaitSegment env pcb (Tsm.start h.tcb)) := by
  have hs := hinv.streamed
  have hbefore : AfterFin h.tcb.state := by
    rw [hstate]
    decide
  refine timeWaitSegment_elim (fun c' hq => done_quiet hs hinv.armed hq)
    (fun c' hq => done_closed ((numberless_start h).quiet hq) hs) ?_
  intro c' hq
  have heq : ∀ tcb, (tcpTimerSlowSet env.cfg env.cfg.sockopt.tcpoTwaitTo
      (tcpTimerSlowCancel tcb)).snd = tcb.snd ∧
      (tcpTimerSlowSet env.cfg env.cfg.sockopt.tcpoTwaitTo
        (tcpTimerSlowCancel tcb)).state = tcb.state := by
    intro tcb
    rw [tcpTimerSlowSet_eq]
    exact ⟨rfl, rfl⟩
  have hsilent : Silent c' (c'.onTcb
      (tcpTimerSlowSet env.cfg env.cfg.sockopt.tcpoTwaitTo ∘ tcpTimerSlowCancel)) := by
    refine silent_onTcb ?_ ?_ <;> rw [Function.comp_apply, (heq _).1]
  have hn := ((numberless_start h).quiet hq).silent hsilent
    (by rw [onTcb_tcb, Function.comp_apply, (heq _).1])
  have hnew : (c'.onTcb (tcpTimerSlowSet env.cfg env.cfg.sockopt.tcpoTwaitTo ∘
      tcpTimerSlowCancel)).tcb.state = .timeWait := by
    rw [onTcb_tcb, Function.comp_apply, (heq _).2]
    exact hq.same.state.trans hstate
  exact ⟨hn.mid_afterFin hs hlive hbefore hnew (by decide), armed_of_other hnew (by decide)⟩

theorem tsmClose_done
    (hcfg : ConfigOk cfg)
    (htimers : TimersInRange cfg)
    (hinv : FinInv cfg h)
    (hlive : h.tcb.inHtable = true)
    (hevent : i.event = .close)
    (hkeeps : KeepsFin cfg h.tcb i) :
    Done h (tsmClose cfg (Tsm.start h.tcb)) := by
  have hs := hinv.streamed
  have hresting := hinv.seq.send.resting hlive
  have hrefused : Done h ((Tsm.start h.tcb).fail .enotconn) :=
    done_quiet hs hinv.armed (quiet_fail _ _)
  have hstart : (Tsm.start h.tcb).tcb.state = h.tcb.state := rfl
  cases hstate : h.tcb.state with
  | init =>
      exact absurd hstate hresting.1
  | closeWait =>
      exact absurd hstate hresting.2.1
  | closed =>
      exact absurd hstate hresting.2.2
  | synRecv =>
      exact absurd hevent (hkeeps.closeEarly hstate)
  | listen | synSent =>
      simp only [tsmClose, hstart, hstate]
      exact done_notifyAndClose (numberless_start h) hs
  | established =>
      have hsends : SendsFin cfg h.tcb i := by
        refine ⟨hstate, ?_⟩
        rw [hevent]
        trivial
      obtain ⟨hnxt, hall⟩ := hinv.all_sent hlive hstate (hkeeps.unsent hsends)
      have hat := hinv.seq.send.at hlive
      rw [hstate] at hat
      have hbound : QueueFlight cfg 0 h.tcb := hat.bound
      have hlt := hbound.flight_lt hcfg
      have hready : Ready h (Tsm.start h.tcb) :=
        ⟨numberless_start h, hlive, hnxt, show flight h.tcb + 1 < 2 ^ 32 by omega, hall⟩
      have hbound' : QueueFlight cfg 0 ((Tsm.start h.tcb).tcpNotif .sessClosing).tcb := hbound
      simp only [tsmClose, hstart, hstate]
      exact ⟨(hready.enterFinWaitI cfg).mid hs,
        armed_of_timerInv (enterFinWaitI_timed hcfg htimers hbound' (by decide))⟩
  | finWaitI | finWaitII | lastAck | closing | timeWait =>
      simpa only [tsmClose, hstart, hstate] using hrefused

/-- Bytes that were not acknowledged, sent again from `SND.UNA` on. -/
theorem tsmRetransData_mid
    {c : Tsm}
    (env : TsmEnv)
    (hcfg : ConfigOk env.cfg)
    (hinv : FinInv env.cfg h)
    (hlive : h.tcb.inHtable = true)
    (hstate : h.tcb.state = .established)
    (hout : c.out = [])
    (hsnd : c.tcb.snd = h.tcb.snd)
    (hretrans : c.tcb.retrans = h.tcb.retrans)
    (hstate' : c.tcb.state = h.tcb.state) :
    Mid h (tsmRetransData env c) := by
  have hs := hinv.streamed
  have hw := hcfg.winSize
  have hbound := hinv.seq.send.bound hlive
  have hqueue : QueueOk env.cfg.sockopt.tcpoWinSize.toNat c.tcb.retrans :=
    hretrans ▸ hbound.queue
  have hb : (queued h.tcb).length ≤ env.cfg.sockopt.tcpoWinSize.toNat := hbound.queue.bounded
  obtain ⟨d, hd, hbytes, huna⟩ := (hinv.seq.seq hlive).estab hstate
  have hlen := congrArg List.length hbytes
  rw [List.length_drop] at hlen
  obtain ⟨heq, hsum⟩ := tcpDataRetrans_spec env hcfg.mtu hqueue (by omega)
  have hcq : queued c.tcb = h.accepted.drop d := by
    rw [queued, hretrans]
    exact hbytes
  have hcu : c.tcb.snd.una = seqAt (h.tcb.snd.iss + 1) d := by
    rw [hsnd]
    exact huna
  rw [hcq, hcu] at heq
  rw [hcq, List.length_drop] at hsum
  have hpackets : packets (tsmRetransData env c).out =
      segPkts c.tcb.rcv { ack := true } (seqAt (h.tcb.snd.iss + 1) d) (h.accepted.drop d)
        (retransSizes env c.tcb) := by
    rw [tsmRetransData, packets_notifyWinUnavail, heq, sentSegs]
    simp only [hout, List.nil_append, packets_map_pkt]
  have htcb : (tsmRetransData env c).tcb =
      { c.tcb with
        snd := { c.tcb.snd with
          nxt := followNxt c.tcb.snd.nxt (seqAt (h.tcb.snd.iss + 1) d)
            (retransSizes env c.tcb) } } := by
    rw [tsmRetransData, notifyWinUnavail_tcb, heq]
    rfl
  refine ⟨@streamed_data h _ { ack := true } [] c.tcb.rcv d (retransSizes env c.tcb) hs hlive
    hstate ?_ ?_ ?_ rfl ?_ ?_ ?_, ?_⟩
  · simp only [after, htcb, hsnd]
  · simp only [after, htcb, hstate', hstate]
  · simp only [after, List.append_nil]
  · simp only [after, hpackets]
  · rintro -
    simp only [after]
    omega
  · intro k hk
    have hq : queued (after h (tsmRetransData env c)).tcb = queued h.tcb := by
      simp only [after, htcb, queued, hretrans]
    have hcases : flight (after h (tsmRetransData env c)).tcb = flight h.tcb ∨
        flight (after h (tsmRetransData env c)).tcb = (retransSizes env c.tcb).sum := by
      simp only [after, htcb, flight, hsnd]
      rcases followNxt_cases h.tcb.snd.nxt (seqAt (h.tcb.snd.iss + 1) d)
        (retransSizes env c.tcb) with hnxt | hnxt
      · left
        rw [hnxt]
      · right
        rw [hnxt, huna, add_sub_cancel_left, BitVec.toNat_ofNat, Nat.mod_eq_of_lt (by omega)]
    rw [hq] at hk
    have hsame : (after h (tsmRetransData env c)).accepted = h.accepted := rfl
    rw [hsame] at hk
    omega
  · intro p hp hfin
    rw [hpackets] at hp
    rw [(segPkts_inPlace rfl hp).2] at hfin
    cases hfin

theorem retransOrClose_done
    {env : TsmEnv} {c : Tsm} {limit : BitVec 8} {giveUp resend : Tsm → Tsm}
    (hcfg : ConfigOk env.cfg)
    (htimers : TimersInRange env.cfg)
    (hqueue : QueueOk env.cfg.sockopt.tcpoWinSize.toNat (resend c).tcb.retrans)
    (hgive : Done h (giveUp c))
    (hresend : tcpTooManyRetries c.tcb limit = false → Mid h (resend c)) :
    Done h (retransOrClose env limit giveUp resend c) := by
  unfold retransOrClose
  split
  · exact hgive
  · rename_i hmore
    exact ⟨(hresend (by simpa using hmore)).schedule, armed_schedule hcfg htimers hqueue⟩

/-- The control block when the retransmission timer has expired. -/
def rtoFired (c : Tsm) : Tsm :=
  c.onTcb fun tcb => { tcb with onRtoList := false, retransCnt := tcb.retransCnt + 1 }

/-- The FIN alone is sent again. -/
theorem resendFin_finOut
    (hs : Streamed h)
    (hlive : h.tcb.inHtable = true)
    (hafter : AfterFin h.tcb.state)
    (hbusy : h.tcb.snd.una ≠ h.tcb.snd.nxt) :
    FinOut h (resendFin (rtoFired (Tsm.start h.tcb))) := by
  obtain ⟨hnxt, hall⟩ := hs.closing hlive hafter
  refine ⟨rfl, hlive, hafter, hnxt, hbusy, fun p hp => ?_, hall⟩
  have hmem : p =
      { seq := h.tcb.snd.nxt - 1, ack := h.tcb.rcv.nxt, flags := { fin := true, ack := true },
        wnd := h.tcb.rcv.wnd.truncate 16, data := [] } := by
    simpa [resendFin, rtoFired, Tsm.tcpSendCtrlPktWithSseq, Tsm.start, packets] using hp
  right
  rw [hmem]
  refine ⟨rfl, ?_⟩
  simp only
  rw [hnxt]
  abel

theorem tcpHandleRetransTo_done
    (hcfg : ConfigOk cfg)
    (htimers : TimersInRange cfg)
    (hinv : FinInv cfg h)
    (hlive : h.tcb.inHtable = true)
    (hevent : i.event = .rtoTimer)
    (hkeeps : KeepsFin cfg h.tcb i) :
    Done h (tcpHandleRetransTo (i.env cfg) (Tsm.start h.tcb)) := by
  have hs := hinv.streamed
  have hresting := hinv.seq.send.resting hlive
  have hn : Numberless h (rtoFired (Tsm.start h.tcb)) :=
    (numberless_start h).silent (silent_onTcb rfl rfl) rfl
  have hstart : (rtoFired (Tsm.start h.tcb)).tcb.state = h.tcb.state := rfl
  have hsame : Mid h (rtoFired (Tsm.start h.tcb)) :=
    (mid_quiet hs (Quiet.refl _)).timers rfl rfl rfl rfl rfl
  have hqueue := (hinv.seq.send.bound hlive).queue
  change Done h (tsmRetransmissionTimeout (i.env cfg) (rtoFired (Tsm.start h.tcb)))
  unfold tsmRetransmissionTimeout
  have hsyn : ∀ (flags : TcpFlags) (s : TcpState), flags.fin = false → h.tcb.state = s →
      s = .synSent ∨ s = .synRecv →
        Mid h ((rtoFired (Tsm.start h.tcb)).tcpSendCtrlPktUseIss flags) := by
    intro flags s hflags hstate hopen
    have hsent := hn.quiet (quiet_ctrl _ (rtoFired (Tsm.start h.tcb)).tcb.snd.iss hflags)
    refine hsent.mid_open (s := s) hs hlive ?_ hstate ?_ ?_
    · rw [hstate]
      rcases hopen with rfl | rfl <;> decide
    · rcases hopen with rfl | rfl <;> decide
    · rcases hopen with rfl | rfl <;> (intro hno; cases hno)
  have hfin : ResendsFin h.tcb.state →
      tcpTooManyRetries (rtoFired (Tsm.start h.tcb)).tcb cfg.sockopt.tcpoRetryCnt = false →
        Mid h (resendFin (rtoFired (Tsm.start h.tcb))) := by
    intro hstate hmore
    have hafter : AfterFin h.tcb.state := by
      rcases hstate with hstate | hstate | hstate <;> (rw [hstate]; decide)
    have hcnt : h.tcb.retransCnt + 1 ≠ cfg.sockopt.tcpoRetryCnt := by
      simpa [tcpTooManyRetries, rtoFired, Tsm.start] using hmore
    exact (resendFin_finOut hs hlive hafter (hkeeps.resend hevent hstate hcnt).2).mid hs
  cases hstate : h.tcb.state with
  | init =>
      exact absurd hstate hresting.1
  | closeWait =>
      exact absurd hstate hresting.2.1
  | closed =>
      exact absurd hstate hresting.2.2
  | synSent =>
      simp only [hstart, hstate]
      exact retransOrClose_done hcfg htimers hqueue (done_notifyAndClose hn hs)
        fun _ => hsyn { syn := true } .synSent rfl hstate (Or.inl rfl)
  | synRecv =>
      simp only [hstart, hstate]
      exact retransOrClose_done hcfg htimers hqueue (done_notifyAndClose hn hs)
        fun _ => hsyn { syn := true, ack := true } .synRecv rfl hstate (Or.inr rfl)
  | established =>
      simp only [hstart, hstate]
      have hw := hcfg.winSize
      have hkept := @sameQueue_retrans (i.env cfg) (rtoFired (Tsm.start h.tcb)) _ hcfg.mtu hqueue
        (by omega)
      have hqueue' : QueueOk cfg.sockopt.tcpoWinSize.toNat
          (tsmRetransData (i.env cfg) (rtoFired (Tsm.start h.tcb))).tcb.retrans := by
        rw [hkept.retrans]
        exact hqueue
      exact retransOrClose_done hcfg htimers hqueue' (done_notifyAndClose hn hs)
        fun _ => tsmRetransData_mid (i.env cfg) hcfg hinv hlive hstate rfl rfl rfl rfl
  | finWaitI =>
      simp only [hstart, hstate]
      have hcancel := hn.silent (silent_onTcb (f := tcpTimerSlowCancel) rfl rfl) rfl
      exact retransOrClose_done hcfg htimers hqueue (done_closed hcancel hs) (hfin (Or.inl hstate))
  | lastAck =>
      simp only [hstart, hstate]
      exact retransOrClose_done hcfg htimers hqueue (done_closed hn hs)
        (hfin (Or.inr (Or.inl hstate)))
  | closing =>
      simp only [hstart, hstate]
      exact retransOrClose_done hcfg htimers hqueue (done_closed hn hs)
        (hfin (Or.inr (Or.inr hstate)))
  | listen | finWaitII | timeWait =>
      have hother : Armed (rtoFired (Tsm.start h.tcb)).tcb := armed_of_other hstate (by decide)
      simp only [hstart, hstate]
      exact ⟨hsame, hother⟩

theorem tcpHandleSlowTo_done
    (env : TsmEnv)
    (hs : Streamed h)
    (ha : Armed h.tcb) :
    Done h (tcpHandleSlowTo env (Tsm.start h.tcb)) := by
  have hn : Numberless h
      ((Tsm.start h.tcb).onTcb fun tcb => { tcb with onSlowList := false }) :=
    (numberless_start h).silent (silent_onTcb rfl rfl) rfl
  have hsame : Done h ((Tsm.start h.tcb).onTcb fun tcb => { tcb with onSlowList := false }) :=
    ⟨(mid_quiet hs (Quiet.refl _)).timers rfl rfl rfl rfl rfl, ha⟩
  have hclose : ∀ s, Done h
      (closeIn s ((Tsm.start h.tcb).onTcb fun tcb => { tcb with onSlowList := false })) := by
    intro s
    unfold closeIn
    split
    · exact done_closed hn hs
    · exact hsame
  unfold tcpHandleSlowTo
  simp only
  split
  · exact hclose _
  · exact hclose _
  · exact hclose _
  all_goals exact hsame

/-- The history of a step that does not open the control block. -/
def extend (h : History) (event : ConnEvent) (c : Tsm) : History :=
  { tcb := c.tcb
    accepted := h.accepted ++ takenBytes event c
    sent := h.sent ++ packets c.out }

theorem tcpDataSend_streamed
    {env : TsmEnv} {data : TsmDataArg}
    (hcfg : ConfigOk env.cfg)
    (hinv : FinInv env.cfg h)
    (hlive : h.tcb.inHtable = true)
    (hstate : h.tcb.state = .established)
    (hdata : SendChainOk h.tcb data.tdaMbuf) :
    Streamed (extend h (.send data) (tcpDataSend env (Tsm.start h.tcb) data)) := by
  have hs := hinv.streamed
  have hqueue := (hinv.seq.send.bound hlive).queue
  rcases @tcpDataSend_spec env (Tsm.start h.tcb) data hcfg.mtu hqueue hdata with
    heq | ⟨tcb', ns, hds⟩
  · rw [heq]
    refine hs.congr rfl rfl rfl rfl ?_ ?_
    · simp [extend, takenBytes, Tsm.fail]
    · simp [extend, Tsm.fail, Tsm.start]
  · obtain ⟨d, hd, hbytes, huna⟩ := (hinv.seq.seq hlive).estab hstate
    have hw := hcfg.winSize
    have hothers : tcb' = { h.tcb with retrans := tcb'.retrans } := hds.stored.others
    have hsnd : tcb'.snd = h.tcb.snd := by
      rw [hothers]
    have hflight : flight tcb' = flight h.tcb := by
      rw [flight, hsnd, flight]
    have hb : (queued tcb').length ≤ env.cfg.sockopt.tcpoWinSize.toNat :=
      hds.stored.queue.bounded
    have hlen := congrArg List.length hbytes
    rw [List.length_drop] at hlen
    have htake : takenBytes (.send data) (tcpDataSend env (Tsm.start h.tcb) data) =
        chainBytes data.tdaMbuf := by
      rw [takenBytes, hds.result]
      simp only [BitVec.toNat_ofNat, Nat.mod_eq_of_lt hdata.size, List.take_length]
    have hqueued : queued tcb' = (h.accepted ++ chainBytes data.tdaMbuf).drop d := by
      rw [hds.stored.bytes, List.drop_append_of_le_length hd]
      exact congrArg (· ++ chainBytes data.tdaMbuf) hbytes
    have hnxt : tcb'.snd.nxt = seqAt (h.tcb.snd.iss + 1) (d + flight h.tcb) := by
      rw [hsnd, ← una_add_flight, huna, seqAt_add]
    have hqlen := congrArg List.length hqueued
    rw [List.length_drop, List.length_append] at hqlen
    have hpackets : packets (tcpDataSend env (Tsm.start h.tcb) data).out =
        segPkts tcb'.rcv (sendFlags data) (seqAt (h.tcb.snd.iss + 1) (d + flight h.tcb))
          ((h.accepted ++ chainBytes data.tdaMbuf).drop (d + flight h.tcb)) ns := by
      rw [hds.result, hqueued, List.drop_drop, hflight, hnxt]
      simp only [sentSegs, Tsm.start, List.nil_append, packets_map_pkt]
    have htcb : (tcpDataSend env (Tsm.start h.tcb) data).tcb =
        { tcb' with
          snd := { tcb'.snd with nxt := tcb'.snd.nxt + BitVec.ofNat 32 ns.sum } } := by
      rw [hds.result, ← followNxt_aligned]
      rfl
    have hsum : flight h.tcb + ns.sum < 2 ^ 32 := by
      cases ns with
      | nil =>
          exact (h.tcb.snd.nxt - h.tcb.snd.una).isLt
      | cons n ns =>
          have hwithin := hds.within (by simp)
          omega
    have hsent : flight (tcpDataSend env (Tsm.start h.tcb) data).tcb =
        flight h.tcb + ns.sum := by
      have hsub : h.tcb.snd.nxt + BitVec.ofNat 32 ns.sum - h.tcb.snd.una =
          BitVec.ofNat 32 (flight h.tcb + ns.sum) := by
        rw [← una_add_flight, BitVec.ofNat_add]
        abel
      rw [htcb, flight, hsnd, hsub, BitVec.toNat_ofNat, Nat.mod_eq_of_lt hsum]
    refine @streamed_data h _ (sendFlags data) (chainBytes data.tdaMbuf) tcb'.rcv
      (d + flight h.tcb) ns hs hlive hstate ?_ ?_ ?_ rfl ?_ ?_ ?_
    · simp only [extend, htcb, hsnd]
    · simp only [extend, htcb]
      rw [hothers]
      exact hstate
    · simp only [extend, htake]
    · simp only [extend, htake, hpackets]
    · intro hne
      have hwithin := hds.within hne
      simp only [extend, htake, List.length_append]
      omega
    · intro k hk
      have hq : queued (tcpDataSend env (Tsm.start h.tcb) data).tcb = queued tcb' := by
        rw [htcb]
        rfl
      simp only [extend, htake, hsent, hq, List.length_append] at hk
      omega

theorem tsmSend_streamed
    {env : TsmEnv} {data : TsmDataArg}
    (hcfg : ConfigOk env.cfg)
    (htimers : TimersInRange env.cfg)
    (hinv : FinInv env.cfg h)
    (hlive : h.tcb.inHtable = true)
    (hdata : SendChainOk h.tcb data.tdaMbuf) :
    Streamed (extend h (.send data) (tsmSend env (Tsm.start h.tcb) data)) ∧
      Armed (tsmSend env (Tsm.start h.tcb) data).tcb ∧
        ∀ p ∈ packets (tsmSend env (Tsm.start h.tcb) data).out, p.flags.fin = false := by
  have hs := hinv.streamed
  have hstart : (Tsm.start h.tcb).tcb.state = h.tcb.state := rfl
  have hrefused : Streamed (extend h (.send data) ((Tsm.start h.tcb).fail .enotconn)) ∧
      Armed ((Tsm.start h.tcb).fail .enotconn).tcb ∧
        ∀ p ∈ packets ((Tsm.start h.tcb).fail .enotconn).out, p.flags.fin = false := by
    refine ⟨hs.congr rfl rfl rfl rfl ?_ ?_, hinv.armed, ?_⟩
    · simp [extend, takenBytes, Tsm.fail, Tsm.start]
    · simp [extend, Tsm.fail, Tsm.start]
    · simp [Tsm.fail, Tsm.start]
  cases hstate : h.tcb.state with
  | established =>
      have hrun : tsmSend env (Tsm.start h.tcb) data = tsmSendData env (Tsm.start h.tcb) data := by
        simp only [tsmSend, hstart, hstate]
      have hsent := tcpDataSend_streamed hcfg hinv hlive hstate hdata
      have htcb : (tsmSendData env (Tsm.start h.tcb) data).tcb =
          tsmScheduleRetransmission env.cfg (tcpDataSend env (Tsm.start h.tcb) data).tcb := by
        rw [tsmSendData, notifyWinUnavail_tcb, onTcb_tcb]
      have hdone : Streamed (extend h (.send data) (tsmSendData env (Tsm.start h.tcb) data)) := by
        have htaken : (tsmSendData env (Tsm.start h.tcb) data).dataSent =
            (tcpDataSend env (Tsm.start h.tcb) data).dataSent := by
          unfold tsmSendData notifyWinUnavail
          split <;> rfl
        have hout : packets (tsmSendData env (Tsm.start h.tcb) data).out =
            packets (tcpDataSend env (Tsm.start h.tcb) data).out := by
          rw [tsmSendData, packets_notifyWinUnavail, onTcb_out]
        refine hsent.congr ?_ ?_ ?_ ?_ ?_ ?_
        all_goals simp only [extend, takenBytes, htaken, hout, htcb]
        all_goals rw [tsmScheduleRetransmission_eq]
      have hbound := hinv.seq.send.bound hlive
      obtain ⟨hsame, hhtable⟩ :=
        @tcpDataSend_state env (Tsm.start h.tcb) data hcfg.mtu hbound.queue hdata
      have hqueue := (@QueueFlight.tcpDataSend _ env (Tsm.start h.tcb) data hbound hcfg hdata).queue
      rw [hrun, htcb]
      refine ⟨hdone, armed_schedule hcfg htimers hqueue, fun p hp =>
        hdone.noFin ?_ ?_ p (List.mem_append_right _ hp)⟩
      · simp only [extend, htcb]
        rw [tsmScheduleRetransmission_eq]
        exact hhtable.trans hlive
      · simp only [extend, htcb]
        rw [tsmScheduleRetransmission_eq]
        simp only
        rw [hsame, hstart, hstate]
        decide
  | closeWait =>
      exact absurd hstate (hinv.seq.send.resting hlive).2.1
  | init | listen | synSent | synRecv | finWaitI | finWaitII | lastAck | closing | timeWait
  | closed =>
      simpa only [tsmSend, hstart, hstate] using hrefused

theorem segment_done
    {pcb : Pcb}
    (hcfg : ConfigOk cfg)
    (htimers : TimersInRange cfg)
    (hinv : FinInv cfg h)
    (hlive : h.tcb.inHtable = true)
    (hevent : i.event = .segment pcb)
    (hkeeps : KeepsFin cfg h.tcb i) :
    Done h (tsmSegmentArrives (i.env cfg) pcb (Tsm.start h.tcb)) := by
  have hs := hinv.streamed
  have hresting := hinv.seq.send.resting hlive
  have hstart : (Tsm.start h.tcb).tcb.state = h.tcb.state := rfl
  unfold tsmSegmentArrives
  cases hstate : h.tcb.state with
  | init =>
      exact absurd hstate hresting.1
  | closeWait =>
      exact absurd hstate hresting.2.1
  | closed =>
      exact absurd hstate hresting.2.2
  | listen =>
      simp only [hstart, hstate]
      exact listenSegment_elim fun c' hq => done_quiet hs hinv.armed hq
  | synSent =>
      simp only [hstart, hstate]
      exact synSent_done (i.env cfg) hinv hlive hstate
  | synRecv =>
      simp only [hstart, hstate]
      exact synRecv_done (i.env cfg) hcfg htimers hinv hlive hstate rfl hevent hkeeps
  | established =>
      simp only [hstart, hstate]
      exact estab_done hcfg htimers hinv hlive hstate hevent hkeeps
  | finWaitI =>
      simp only [hstart, hstate]
      exact finWaitI_done hcfg htimers hinv hlive hstate hevent hkeeps
  | finWaitII =>
      simp only [hstart, hstate]
      exact finWaitII_done (i.env cfg) hcfg hinv hlive hstate
  | lastAck =>
      simp only [hstart, hstate]
      exact lastAckSegment_elim (fun c' hq => done_quiet hs hinv.armed hq)
        fun c' hq => done_closed ((numberless_start h).quiet hq) hs
  | closing =>
      simp only [hstart, hstate]
      exact closing_done hcfg hinv hlive hstate hevent hkeeps
  | timeWait =>
      simp only [hstart, hstate]
      exact timeWait_done (i.env cfg) hinv hlive hstate

/-- What a step leaves: what was sent is in order, the timer runs, a FIN waits for its ACK. -/
structure StepOk (cfg : TcpConfig) (h : History) (i : ConnInput) : Prop where
  streamed : Streamed (historyStep cfg h i)
  armed : Armed (connStep cfg h.tcb i).tcb
  busy : FinBusy (connStep cfg h.tcb i)

/-- Where no data is taken, the history is extended by the packets of the step. -/
theorem Done.stepOk
    (hd : Done h (connStep cfg h.tcb i))
    (hopens : opens i.event = false)
    (htaken : takenBytes i.event (connStep cfg h.tcb i) = []) :
    StepOk cfg h i := by
  refine ⟨?_, hd.armed, hd.mid.busy⟩
  simp only [historyStep, hopens, Bool.false_eq_true, if_false]
  exact hd.mid.streamed.congr rfl rfl rfl rfl (by rw [htaken, List.append_nil]; rfl) rfl

/-- A control block that was just opened. -/
theorem stepOk_opened
    (hopens : opens i.event = true)
    (hout : ∀ p ∈ packets (connStep cfg h.tcb i).out, pktNumbers p = 0)
    (hstate :
      (connStep cfg h.tcb i).tcb.state = .listen ∨ (connStep cfg h.tcb i).tcb.state = .synSent ∨
        (connStep cfg h.tcb i).tcb.state = .synRecv) :
    StepOk cfg h i := by
  have hnone : ∀ p ∈ packets (connStep cfg h.tcb i).out, p.flags.fin = false :=
    fun p hp => (no_data_of_numberless (hout p hp)).2
  refine ⟨?_, ?_, fun p hp hfin => ?_⟩
  · simp only [historyStep, hopens, if_true]
    refine streamed_opened hout ?_ ?_ <;>
      (rcases hstate with hs | hs | hs <;> (rw [hs]; decide))
  · rcases hstate with hs | hs | hs <;> exact armed_of_other hs (by decide)
  · rw [hnone p hp] at hfin
    cases hfin

/-- What a step outside the defects sends is in order. -/
theorem stepOk_of_keeps
    (hcfg : ConfigOk cfg)
    (htimers : TimersInRange cfg)
    (hinv : FinInv cfg h)
    (hlegal : ConnLegal h.tcb i)
    (hkeeps : KeepsFin cfg h.tcb i) :
    StepOk cfg h i := by
  have hs := hinv.streamed
  cases hevent : i.event with
  | «open» active =>
      have hrun : connStep cfg h.tcb i =
          tcpOpenV4Connection (i.env cfg) active (Tsm.start h.tcb) := by
        simp only [connStep, hevent]
      refine stepOk_opened (by rw [hevent]; rfl) ?_ ?_
      · rw [hrun]
        exact opened_packets (i.env cfg) active h.tcb
      · rw [hrun]
        cases active with
        | false =>
            exact Or.inl rfl
        | true =>
            obtain ⟨tcb, heq, hsyn⟩ := openedActive_eq (i.env cfg) (Tsm.start h.tcb)
            rw [heq, tsmScheduleRetransmission_eq]
            exact Or.inr (Or.inl hsyn.state)
  | accept syn =>
      have hrun : connStep cfg h.tcb i =
          listenClone (i.env cfg) syn (listenerTcb (i.env cfg)) := by
        simp only [connStep, hevent]
      obtain ⟨tcb, heq, hsyn⟩ := accepted_eq (i.env cfg) syn
      refine stepOk_opened (by rw [hevent]; rfl) ?_ ?_
      · rw [hrun]
        exact accepted_packets (i.env cfg) syn
      · rw [hrun, heq, tsmScheduleRetransmission_eq]
        exact Or.inr (Or.inr hsyn.state)
  | send data =>
      rw [ConnLegal, hevent] at hlegal
      have hrun : connStep cfg h.tcb i = tsmSend (i.env cfg) (Tsm.start h.tcb) data := by
        simp only [connStep, hevent]
      obtain ⟨hsent, harmed, hnone⟩ :=
        @tsmSend_streamed h (i.env cfg) data hcfg htimers hinv hlegal.1 hlegal.2
      refine ⟨?_, by rw [hrun]; exact harmed, fun p hp hfin => ?_⟩
      · simp only [historyStep, hevent, opens, Bool.false_eq_true, if_false, hrun]
        exact hsent
      · rw [hrun] at hp
        rw [hnone p hp] at hfin
        cases hfin
  | close =>
      rw [ConnLegal, hevent] at hlegal
      refine Done.stepOk ?_ (by rw [hevent]; rfl) (by rw [hevent]; rfl)
      simp only [connStep, hevent]
      exact tsmClose_done hcfg htimers hinv hlegal hevent hkeeps
  | segment pcb =>
      rw [ConnLegal, hevent] at hlegal
      refine Done.stepOk ?_ (by rw [hevent]; rfl) (by rw [hevent]; rfl)
      simp only [connStep, hevent]
      exact segment_done hcfg htimers hinv hlegal hevent hkeeps
  | rtoTimer =>
      rw [ConnLegal, hevent] at hlegal
      refine Done.stepOk ?_ (by rw [hevent]; rfl) (by rw [hevent]; rfl)
      simp only [connStep, hevent]
      exact tcpHandleRetransTo_done hcfg htimers hinv
        (hinv.seq.send.live_of_timer (Or.inl hlegal)) hevent hkeeps
  | slowTimer =>
      refine Done.stepOk ?_ (by rw [hevent]; rfl) (by rw [hevent]; rfl)
      simp only [connStep, hevent]
      exact tcpHandleSlowTo_done (i.env cfg) hs hinv.armed
  | purge =>
      refine Done.stepOk ?_ (by rw [hevent]; rfl) (by rw [hevent]; rfl)
      simp only [connStep, hevent]
      exact done_dead ((numberless_start h).silent (silent_close _) (tcpSilentClose_iss _)) hs
        (tcpSilentClose_dead _).1

theorem finInv_step
    (hcfg : ConfigOk cfg)
    (htimers : TimersInRange cfg)
    (hinv : FinInv cfg h)
    (hlegal : ConnLegal h.tcb i)
    (hkeeps : KeepsFin cfg h.tcb i) :
    FinInv cfg (historyStep cfg h i) := by
  have hok := stepOk_of_keeps hcfg htimers hinv hlegal hkeeps
  refine ⟨?_, ?_, hok.streamed⟩
  · exact sequenced_step hcfg hinv.seq hlegal (hkeeps.sequence hcfg hinv hlegal)
  · rw [historyStep_tcb]
    exact hok.armed

theorem finInv_blank :
    FinInv cfg .blank := by
  refine ⟨seqInv_blank, armed_of_dead rfl, ⟨?_, ?_, ?_, ?_, ?_⟩⟩
  · rintro p hp
    cases hp
  · rintro ⟨p, hp, -⟩
    cases hp
  · intro hlive
    cases hlive
  · intro hlive
    cases hlive
  · intro hlive
    cases hlive

end Steps

section Results

variable {cfg : TcpConfig} {h : History} {i : ConnInput}

/-- The FIN follows all queued data, in the step of one input. -/
structure FinFollows (cfg : TcpConfig) (h : History) (i : ConnInput) : Prop where
  /-- every byte is sent under its own number, and the FIN has the number after all of them -/
  inPlace :
    ∀ p ∈ (historyStep cfg h i).sent,
      InPlace (historyStep cfg h i).tcb.snd.iss (historyStep cfg h i).accepted p
  /-- a FIN of this step has the number after the queue -/
  finNumber :
    ∀ p ∈ packets (connStep cfg h.tcb i).out, p.flags.fin = true →
      p.seq = (historyStep cfg h i).tcb.snd.una +
        BitVec.ofNat 32 (queued (historyStep cfg h i).tcb).length
  /-- once a FIN was sent, every accepted byte has been -/
  allSent :
    (∃ p ∈ (historyStep cfg h i).sent, p.flags.fin = true) →
      ∀ k < (historyStep cfg h i).accepted.length,
        Carried (historyStep cfg h i).tcb.snd.iss (historyStep cfg h i).accepted
          (historyStep cfg h i).sent k
  /-- before that, a byte that was not sent is in the queue and has the timer running -/
  pending :
    (historyStep cfg h i).tcb.inHtable = true →
      (historyStep cfg h i).tcb.state = .established →
        ∀ k < (historyStep cfg h i).accepted.length,
          Carried (historyStep cfg h i).tcb.snd.iss (historyStep cfg h i).accepted
            (historyStep cfg h i).sent k ∨
          ((historyStep cfg h i).accepted.length ≤
              k + (queued (historyStep cfg h i).tcb).length ∧
            (historyStep cfg h i).tcb.onRtoList = true)
  /-- until the limit a timeout sends the FIN and the bytes in the queue again -/
  resent :
    i.event = .rtoTimer → ResendsFin h.tcb.state →
      h.tcb.retransCnt + 1 ≠ cfg.sockopt.tcpoRetryCnt →
        (∃ p ∈ packets (connStep cfg h.tcb i).out, p.flags.fin = true) ∧
          ∀ k < h.accepted.length, h.accepted.length ≤ k + (queued h.tcb).length →
            Carried h.tcb.snd.iss h.accepted (packets (connStep cfg h.tcb i).out) k
  /-- while something is not acknowledged there is a next timeout -/
  timer :
    (historyStep cfg h i).tcb.inHtable = true → ResendsFin (historyStep cfg h i).tcb.state →
      HoldsUnacked (historyStep cfg h i).tcb → (historyStep cfg h i).tcb.onRtoList = true

theorem FinInv.pending
    (hinv : FinInv cfg h)
    (hlive : h.tcb.inHtable = true)
    (hstate : h.tcb.state = .established)
    {k : Nat}
    (hk : k < h.accepted.length) :
    Carried h.tcb.snd.iss h.accepted h.sent k ∨
      (h.accepted.length ≤ k + (queued h.tcb).length ∧ h.tcb.onRtoList = true) := by
  rcases Nat.lt_or_ge (k + (queued h.tcb).length) (h.accepted.length + flight h.tcb) with
    hsent | hwaits
  · exact Or.inl (hinv.streamed.estab hlive hstate k hsent)
  · right
    refine ⟨by omega, hinv.armed hlive (Or.inl hstate) (Or.inr ?_)⟩
    rw [← List.length_pos_iff]
    omega

/-- A timeout below the limit sends the FIN again. -/
theorem fin_resent
    (hevent : i.event = .rtoTimer)
    (hstate : ResendsFin h.tcb.state)
    (hmore : h.tcb.retransCnt + 1 ≠ cfg.sockopt.tcpoRetryCnt) :
    ∃ p ∈ packets (connStep cfg h.tcb i).out, p.flags.fin = true := by
  have hcnt : tcpTooManyRetries (rtoFired (Tsm.start h.tcb)).tcb cfg.sockopt.tcpoRetryCnt =
      false := by
    simpa [tcpTooManyRetries, rtoFired, Tsm.start] using hmore
  have hstart : (rtoFired (Tsm.start h.tcb)).tcb.state = h.tcb.state := rfl
  have hrun : ∀ giveUp, retransOrClose (i.env cfg) cfg.sockopt.tcpoRetryCnt giveUp resendFin
      (rtoFired (Tsm.start h.tcb)) =
        (resendFin (rtoFired (Tsm.start h.tcb))).onTcb (tsmScheduleRetransmission cfg) := by
    intro giveUp
    simp only [retransOrClose, hcnt, Bool.false_eq_true, if_false]
    rfl
  have hstep : connStep cfg h.tcb i =
      (resendFin (rtoFired (Tsm.start h.tcb))).onTcb (tsmScheduleRetransmission cfg) := by
    have hfired : connStep cfg h.tcb i =
        tsmRetransmissionTimeout (i.env cfg) (rtoFired (Tsm.start h.tcb)) := by
      simp only [connStep, hevent]
      rfl
    rw [hfired]
    unfold tsmRetransmissionTimeout
    rcases hstate with hs | hs | hs <;> simp only [hstart, hs] <;> exact hrun _
  refine
    ⟨{ seq := h.tcb.snd.nxt - 1, ack := h.tcb.rcv.nxt, flags := { fin := true, ack := true },
       wnd := h.tcb.rcv.wnd.truncate 16, data := [] }, ?_, rfl⟩
  rw [hstep]
  simp [resendFin, rtoFired, Tsm.tcpSendCtrlPktWithSseq, Tsm.start, packets]

/-- A step outside the defects sends the FIN after the data. -/
theorem finFollows_step
    (hcfg : ConfigOk cfg)
    (htimers : TimersInRange cfg)
    (hinv : FinInv cfg h)
    (hlegal : ConnLegal h.tcb i)
    (hkeeps : KeepsFin cfg h.tcb i) :
    FinFollows cfg h i := by
  have hnext := finInv_step hcfg htimers hinv hlegal hkeeps
  have hs := hnext.streamed
  have hbusy := (stepOk_of_keeps hcfg htimers hinv hlegal hkeeps).busy
  refine ⟨hs.placed, ?_, hs.complete, fun hlive hstate k hk => hnext.pending hlive hstate hk,
    ?_, fun hlive hstate => hnext.armed hlive (Or.inr hstate)⟩
  · intro p hp hfin
    obtain ⟨hlive, hafter, hne⟩ := hbusy p hp hfin
    rw [← historyStep_tcb] at hlive hafter hne
    obtain ⟨-, hend⟩ := hnext.flight_closing hcfg hlive hafter hne
    have hmem : p ∈ (historyStep cfg h i).sent := by
      simp only [historyStep]
      split
      · exact hp
      · exact List.mem_append_right _ hp
    rw [hend]
    exact ((hs.placed p hmem).fin hfin).2
  · intro hevent hstate hmore
    refine ⟨fin_resent hevent hstate hmore, fun k hk hin => ?_⟩
    have hempty := (hkeeps.resend hevent hstate hmore).1
    rw [hempty, List.length_nil] at hin
    omega

/-- A step that can happen, and that does not reach one of the defects. -/
def FinOk (cfg : TcpConfig) (h : History) (i : ConnInput) : Prop :=
  ConnLegal h.tcb i ∧ KeepsFin cfg h.tcb i

/-- In a run that does not reach one of the defects every FIN follows all queued data. -/
theorem fin_follows_data
    (cfg : TcpConfig)
    (hcfg : ConfigOk cfg)
    (htimers : TimersInRange cfg)
    (is : List ConnInput)
    (hrun : Guarded (historyStep cfg) (FinOk cfg) .blank is) :
    Guarded (historyStep cfg) (FinFollows cfg) .blank is :=
  guarded_invariant (FinInv cfg)
    (fun _ _ hinv hok => finInv_step hcfg htimers hinv hok.1 hok.2)
    (fun _ _ hinv hok => finFollows_step hcfg htimers hinv hok.1 hok.2) finInv_blank hrun

/-- Before the FIN, when nothing in the queue is left to be sent. -/
theorem keepsFin_beforeFin
    {tcb : Tcb}
    (hrecv : tcb.state ≠ .synRecv)
    (hafter : ¬ AfterFin tcb.state)
    (hanswer : NeverAsksClose i.answer)
    (hunsent : (queued tcb).length ≤ flight tcb) :
    KeepsFin cfg tcb i := by
  refine ⟨?_, ?_, ?_, ?_, ?_, fun _ => hunsent, ?_⟩
  · exact fun _ hs => absurd hs hrecv
  · exact fun hs => absurd hs hrecv
  · exact fun _ hs => absurd hs hrecv
  · exact fun _ _ _ => not_closesBeforeFin hanswer
  · rintro _ (⟨hs, -⟩ | hs) <;> exact absurd (by simp [AfterFin, hs]) hafter
  · rintro - (hs | hs | hs) <;> exact absurd (by simp [AfterFin, hs]) hafter

/-- Four bytes are sent twice and acknowledged; then a close, and the FIN is sent twice too. -/
def finResent : List ConnInput :=
  [.plain (.open true),
   .plain (.segment (plainPcb 100 1 { syn := true, ack := true } [])),
   .plain (plainSend 7 [1, 2, 3, 4]),
   .plain .rtoTimer,
   .plain (.segment (plainPcb 101 5 { ack := true } [])),
   .plain .close,
   .plain .rtoTimer,
   .plain (.segment (plainPcb 101 6 { ack := true } []))]

theorem finResent_ok :
    Guarded (historyStep defaultConfig) (FinOk defaultConfig) .blank finResent := by
  refine ⟨⟨by decide, ?_⟩, ⟨by decide, ?_⟩, ⟨by decide, ?_⟩, ⟨by decide, ?_⟩,
    ⟨by decide, ?_⟩, ⟨by decide, ?_⟩, ⟨by decide, ?_⟩, ⟨by decide, ?_⟩, trivial⟩
  · exact keepsFin_beforeFin (by decide) (by decide) (plain_never_asksClose _) (by decide)
  · exact keepsFin_beforeFin (by decide) (by decide) (plain_never_asksClose _) (by decide)
  · exact keepsFin_beforeFin (by decide) (by decide) (plain_never_asksClose _) (by decide)
  · exact keepsFin_beforeFin (by decide) (by decide) (plain_never_asksClose _) (by decide)
  · exact keepsFin_beforeFin (by decide) (by decide) (plain_never_asksClose _) (by decide)
  · exact keepsFin_beforeFin (by decide) (by decide) (plain_never_asksClose _) (by decide)
  · refine ⟨?_, ?_, ?_, ?_, ?_, ?_, fun _ _ _ => by decide⟩
    · exact fun _ hs => absurd hs (by decide)
    · exact fun hs => absurd hs (by decide)
    · exact fun _ hs => absurd hs (by decide)
    · exact fun _ hs => absurd hs (by decide)
    · exact fun _ _ hevent => by cases hevent
    · exact fun hsends => absurd hsends.1 (by decide)
  · refine ⟨?_, ?_, ?_, ?_, ?_, ?_, ?_⟩
    · exact fun _ hs => absurd hs (by decide)
    · exact fun hs => absurd hs (by decide)
    · exact fun _ hs => absurd hs (by decide)
    · exact fun _ hs => absurd hs (by decide)
    · rintro pcb - hevent - - - hne
      cases hevent
      exact absurd (by decide) hne
    · exact fun hsends => absurd hsends.1 (by decide)
    · exact fun hevent => by cases hevent

theorem fin_follows_data_finResent :
    Guarded (historyStep defaultConfig) (FinFollows defaultConfig) .blank finResent :=
  fin_follows_data defaultConfig defaultConfig_ok defaultTimers_inRange finResent finResent_ok

/-- Four bytes are sent, and the application closes before they are acknowledged. -/
def closedUnacked : List ConnInput :=
  [.plain (.open true),
   .plain (.segment (plainPcb 100 1 { syn := true, ack := true } [])),
   .plain (plainSend 7 [1, 2, 3, 4]),
   .plain .close,
   .plain .rtoTimer]

/-- The timeout in `TS_FIN_WAIT_I` sends the FIN again, and none of the four bytes. -/
theorem closedUnacked_lost :
    Guarded (historyStep defaultConfig) (fun h i => ConnLegal h.tcb i) .blank closedUnacked ∧
      ¬ Guarded (historyStep defaultConfig) (FinFollows defaultConfig) .blank closedUnacked := by
  refine ⟨by decide, fun hall => ?_⟩
  have hlast := hall.2.2.2.2.1
  obtain ⟨p, hp, s, -, -, hle, hlt⟩ :=
    (hlast.resent rfl (by decide) (by decide)).2 0 (by decide) (by decide)
  have hdata : ∀ p ∈ packets (connStep defaultConfig
      (run (historyStep defaultConfig) .blank (closedUnacked.take 4)).tcb
      (.plain .rtoTimer)).out, p.data = [] := by
    decide
  rw [hdata p hp, List.length_nil] at hlt
  omega

end Results

end FinAfterData
end Warp17
