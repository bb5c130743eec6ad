import Warp17.SendInvariants

/-!
# A session always has a timer

A session that waits for its peer has a timer running, so that a silent peer cannot keep it
for ever.  `TimerInv` says which timer that is in each state.  Three defects of the machine
break it, and `KeepsTimers` leaves out the steps that reach them:

- the clean-up cancels the retransmission timer when the last data byte is acknowledged, also
  while a FIN is outstanding;
- `TS_SYN_RECV` takes an ACK that does not cover the SYN, or goes on after the application
  has closed, and cancels the timer of what is still in flight;
- a FIN that came early loses the news that our own FIN was acknowledged, and the next FIN
  then leads to `TS_CLOSING` with nothing in flight.

**Results**
- `timerInv_step`: every other step preserves the invariant.
- `session_not_orphaned`: in the runs made of such steps no session waits without a timer.
-/

namespace Warp17
namespace SessionTimers

open GuardedRuns SequenceComparison MbufChains ControlBlock SendQueue RetransmissionQueue
open TcpStateMachine TransitionPaths ConnectionRuns SendInvariants

/-- The timeouts are in the range of their timer wheels. -/
structure TimersInRange (cfg : TcpConfig) : Prop where
  rto : cfg.sockopt.tcpoRto ≤ cfg.rtoTmrMax
  fin : cfg.sockopt.tcpoFinTo ≤ cfg.slowTmrMax
  twait : cfg.sockopt.tcpoTwaitTo ≤ cfg.slowTmrMax
  orphan : cfg.sockopt.tcpoOrphanTo ≤ cfg.slowTmrMax

/-- A sequence number in flight, or a byte in the retransmission queue. -/
def HoldsUnacked (tcb : Tcb) : Prop :=
  tcb.snd.una ≠ tcb.snd.nxt ∨ queued tcb ≠ []

/-- The timers of a live control block, by state. -/
structure TimerInv (tcb : Tcb) : Prop where
  handshake : tcb.state = .synSent ∨ tcb.state = .synRecv → tcb.onRtoList = true
  estab : tcb.state = .established → HoldsUnacked tcb → tcb.onRtoList = true
  finWaitI :
    tcb.state = .finWaitI →
      tcb.onSlowList = true ∧ (HoldsUnacked tcb → tcb.onRtoList = true)
  lastAck :
    tcb.state = .lastAck ∨ tcb.state = .closing →
      tcb.snd.una ≠ tcb.snd.nxt ∧ tcb.onRtoList = true
  waiting : tcb.state = .finWaitII ∨ tcb.state = .timeWait → tcb.onSlowList = true

/-- The allowance when the handshake is complete before `TS_ESTABLISHED`. -/
def tightEstab : Slack :=
  { estab := 0, finWait := 3, lastAck := 4 }

/-- The invariant: the bounds of the queue, and the timers of a live control block. -/
structure SessionInv (cfg : TcpConfig) (tcb : Tcb) : Prop where
  send : SendInv cfg tightEstab tcb
  timers : tcb.inHtable = true → TimerInv tcb

/-- The steps that do not reach one of the defects. -/
structure KeepsTimers (tcb : Tcb) (i : ConnInput) : Prop where
  /-- `TS_SYN_RECV` does not go to `TS_ESTABLISHED` on an ACK that leaves the SYN in flight -/
  synUnacked :
    ∀ pcb, tcb.state = .synRecv → i.event = .segment pcb → ReachesAck tcb pcb →
      pcb.recvAck = tcb.snd.una → pcb.flags.fin = true
  /-- the application does not close while `TS_SYN_RECV` goes to `TS_ESTABLISHED` -/
  closeMidway :
    ∀ pcb, tcb.state = .synRecv → i.event = .segment pcb → SynRecvCloses i.answer pcb tcb →
      pcb.flags.fin = true
  /-- the last byte in the queue is not acknowledged without the FIN after it -/
  finLeft :
    ∀ pcb, tcb.state = .finWaitI ∨ tcb.state = .closing → i.event = .segment pcb →
      ReachesAck tcb pcb → segGT pcb.recvAck tcb.snd.una = true →
      segLE pcb.recvAck tcb.snd.nxt = true → pcb.recvAck ≠ tcb.snd.nxt →
      (pcb.recvAck - tcb.snd.una).toNat ≠ (queued tcb).length
  /-- no FIN comes to `TS_FIN_WAIT_I` after ours was acknowledged there -/
  finTwice :
    ∀ pcb, tcb.state = .finWaitI → i.event = .segment pcb → ReachesAck tcb pcb →
      tcb.snd.una = tcb.snd.nxt → pcb.flags.fin = false

section Timers

variable {cfg : TcpConfig}

theorem holdsUnacked_of_eq
    {tcb tcb' : Tcb}
    (huna : tcb'.snd.una = tcb.snd.una)
    (hnxt : tcb'.snd.nxt = tcb.snd.nxt)
    (hretrans : tcb'.retrans = tcb.retrans) :
    HoldsUnacked tcb' ↔ HoldsUnacked tcb := by
  rw [HoldsUnacked, HoldsUnacked, huna, hnxt, queued, queued, hretrans]

/-- Scheduling arms the timer when anything is unacknowledged. -/
theorem schedule_arms
    (tcb : Tcb)
    (hcfg : ConfigOk cfg)
    (htimers : TimersInRange cfg)
    (hqueue : QueueOk cfg.sockopt.tcpoWinSize.toNat tcb.retrans)
    (h : HoldsUnacked tcb) :
    (tsmScheduleRetransmission cfg tcb).onRtoList = true := by
  have hw := hcfg.winSize
  have hnot : ¬ (tcb.snd.una = tcb.snd.nxt ∧ tcb.retrans.totalSize = 0) := by
    rintro ⟨heq, htotal⟩
    rcases h with h | h
    · exact h heq
    · exact h ((hqueue.total_eq_zero (by omega)).1 htotal)
  unfold tsmScheduleRetransmission
  rw [if_neg hnot]
  split
  · assumption
  · rename_i hoff
    unfold tcpTimerRtoSet
    rw [if_neg hoff, if_neg (BitVec.not_lt.2 htimers.rto)]

theorem slowSet_arms
    {timeout : U32}
    (hrange : timeout ≤ cfg.slowTmrMax)
    (tcb : Tcb) :
    (tcpTimerSlowSet cfg timeout tcb).onSlowList = true := by
  unfold tcpTimerSlowSet
  split
  · assumption
  · rw [if_neg (BitVec.not_lt.2 hrange)]

/-- The invariant, for the control blocks that are in use. -/
def Timed (tcb : Tcb) : Prop :=
  tcb.inHtable = true → TimerInv tcb

theorem timed_closed
    (c : Tsm) :
    Timed (tcpSilentClose c).tcb := by
  intro hlive
  rw [(tcpSilentClose_dead c).1] at hlive
  cases hlive

theorem Timed.same
    {tcb tcb' : Tcb}
    (h : Timed tcb)
    (hsame : SameSend tcb tcb') :
    Timed tcb' := by
  intro hlive
  have hinv := h (hsame.inHtable.symm.trans hlive)
  have hholds : HoldsUnacked tcb' ↔ HoldsUnacked tcb :=
    holdsUnacked_of_eq (by rw [hsame.snd]) (by rw [hsame.snd]) hsame.retrans
  refine ⟨?_, ?_, ?_, ?_, ?_⟩
  · rw [hsame.state, hsame.onRtoList]
    exact hinv.handshake
  · rw [hsame.state, hsame.onRtoList, hholds]
    exact hinv.estab
  · rw [hsame.state, hsame.onRtoList, hsame.onSlowList, hholds]
    exact hinv.finWaitI
  · rw [hsame.state, hsame.onRtoList, hsame.snd]
    exact hinv.lastAck
  · rw [hsame.state, hsame.onSlowList]
    exact hinv.waiting

theorem timerInv_handshake
    {tcb : Tcb}
    (hs : tcb.state = .synSent ∨ tcb.state = .synRecv)
    (hrto : tcb.onRtoList = true) :
    TimerInv tcb := by
  refine ⟨fun _ => hrto, ?_, ?_, ?_, ?_⟩ <;> rcases hs with hs | hs <;> simp [hs]

theorem timerInv_listen
    {tcb : Tcb}
    (hs : tcb.state = .listen) :
    TimerInv tcb := by
  refine ⟨?_, ?_, ?_, ?_, ?_⟩ <;> simp [hs]

theorem timerInv_estab
    {tcb : Tcb}
    (hs : tcb.state = .established)
    (hrto : HoldsUnacked tcb → tcb.onRtoList = true) :
    TimerInv tcb := by
  refine ⟨?_, fun _ => hrto, ?_, ?_, ?_⟩ <;> simp [hs]

theorem timerInv_finWaitI
    {tcb : Tcb}
    (hs : tcb.state = .finWaitI)
    (hslow : tcb.onSlowList = true)
    (hrto : HoldsUnacked tcb → tcb.onRtoList = true) :
    TimerInv tcb := by
  refine ⟨?_, ?_, fun _ => ⟨hslow, hrto⟩, ?_, ?_⟩ <;> simp [hs]

theorem timerInv_lastAck
    {tcb : Tcb}
    (hs : tcb.state = .lastAck ∨ tcb.state = .closing)
    (hne : tcb.snd.una ≠ tcb.snd.nxt)
    (hrto : tcb.onRtoList = true) :
    TimerInv tcb := by
  refine ⟨?_, ?_, ?_, fun _ => ⟨hne, hrto⟩, ?_⟩ <;> rcases hs with hs | hs <;> simp [hs]

theorem timerInv_waiting
    {tcb : Tcb}
    (hs : tcb.state = .finWaitII ∨ tcb.state = .timeWait)
    (hslow : tcb.onSlowList = true) :
    TimerInv tcb := by
  refine ⟨?_, ?_, ?_, ?_, fun _ => hslow⟩ <;> rcases hs with hs | hs <;> simp [hs]

/-- A FIN that was just sent is not acknowledged. -/
theorem sendFin_unacked
    {c : Tsm} {k : Nat}
    (hcfg : ConfigOk cfg)
    (h : QueueFlight cfg k c.tcb)
    (hk : k < 2 ^ 16) :
    (sendFin c).tcb.snd.una ≠ (sendFin c).tcb.snd.nxt := by
  have hlt := h.flight_lt hcfg
  have hsucc : flight (sendFin c).tcb = flight c.tcb + 1 := flight_succ rfl rfl (by omega)
  intro heq
  have hzero : flight (sendFin c).tcb = 0 := by
    rw [flight, heq, sub_self]
    rfl
  omega

theorem enterFinWaitI_timed
    {c : Tsm} {k : Nat}
    (hcfg : ConfigOk cfg)
    (htimers : TimersInRange cfg)
    (h : QueueFlight cfg k c.tcb)
    (hk : k < 2 ^ 16) :
    TimerInv (enterFinWaitI cfg c).tcb := by
  have hset : QueueFlight cfg k (setState .finWaitI c).tcb := h.of_eq rfl rfl rfl
  have hholds : HoldsUnacked (sendFin (setState .finWaitI c)).tcb :=
    Or.inl (sendFin_unacked hcfg hset hk)
  have harmed := schedule_arms _ hcfg htimers (hset.sendFin hcfg hk).queue hholds
  have hslow := slowSet_arms htimers.orphan
    (tsmScheduleRetransmission cfg (sendFin (setState .finWaitI c)).tcb)
  have heq : (enterFinWaitI cfg c).tcb =
      tcpTimerSlowSet cfg cfg.sockopt.tcpoOrphanTo
        (tsmScheduleRetransmission cfg (sendFin (setState .finWaitI c)).tcb) := rfl
  refine timerInv_finWaitI ?_ (heq ▸ hslow) fun _ => ?_
  · rw [heq, tcpTimerSlowSet_eq, tsmScheduleRetransmission_eq]
    rfl
  · rw [heq, tcpTimerSlowSet_eq]
    exact harmed

theorem enterCloseWait_timed
    {c : Tsm} {k : Nat}
    (hcfg : ConfigOk cfg)
    (htimers : TimersInRange cfg)
    (h : QueueFlight cfg k c.tcb)
    (hk : k < 2 ^ 16) :
    TimerInv (enterCloseWait cfg c).tcb := by
  have hset : QueueFlight cfg k (setState .closeWait c).tcb := h.of_eq rfl rfl rfl
  have hne := sendFin_unacked hcfg hset hk
  have harmed := schedule_arms (setState .lastAck (sendFin (setState .closeWait c))).tcb
    hcfg htimers (hset.sendFin hcfg hk).queue (Or.inl hne)
  have heq : (enterCloseWait cfg c).tcb =
      tsmScheduleRetransmission cfg
        (setState .lastAck (sendFin (setState .closeWait c))).tcb := rfl
  refine timerInv_lastAck (Or.inl ?_) ?_ (heq ▸ harmed)
  · rw [heq, tsmScheduleRetransmission_eq]
    rfl
  · rw [heq, tsmScheduleRetransmission_eq]
    exact hne

theorem enterClosing_timed
    {c : Tsm}
    (hcfg : ConfigOk cfg)
    (htimers : TimersInRange cfg)
    (hqueue : QueueOk cfg.sockopt.tcpoWinSize.toNat c.tcb.retrans)
    (hne : c.tcb.snd.una ≠ c.tcb.snd.nxt) :
    TimerInv (enterClosing cfg c).tcb := by
  have harmed := schedule_arms (setState .closing c).tcb hcfg htimers hqueue
    (Or.inl hne)
  have heq : (enterClosing cfg c).tcb =
      tsmScheduleRetransmission cfg (setState .closing c).tcb := rfl
  refine timerInv_lastAck (Or.inr ?_) ?_ (heq ▸ harmed)
  · rw [heq, tsmScheduleRetransmission_eq]
    rfl
  · rw [heq, tsmScheduleRetransmission_eq]
    exact hne

theorem enterFinWaitII_timed
    (htimers : TimersInRange cfg)
    (c : Tsm) :
    TimerInv (enterFinWaitII cfg c).tcb := by
  refine timerInv_waiting (Or.inl ?_) (slowSet_arms htimers.fin _)
  rw [enterFinWaitII, onTcb_tcb, tcpTimerSlowSet_eq]
  rfl

theorem enterTimeWait_timed
    (htimers : TimersInRange cfg)
    (c : Tsm) :
    Timed (enterTimeWait cfg c).tcb := by
  unfold enterTimeWait
  simp only
  split
  · exact timed_closed _
  · intro _
    refine timerInv_waiting (Or.inr ?_) (slowSet_arms htimers.twait _)
    rw [onTcb_tcb, tcpTimerSlowSet_eq]
    rfl

end Timers

section Acknowledgements

variable {cfg : TcpConfig} {pcb : Pcb} {finSent : Bool} {c c' : Tsm} {segAck : U32}

/-- Bytes that stay in the queue keep the timer. -/
theorem Accepted.rto_of_queued
    (h : Accepted cfg pcb finSent c segAck c')
    (hq : queued c'.tcb ≠ []) :
    c'.tcb.onRtoList = c.tcb.onRtoList := by
  rw [h.clean.cleaned.rto, if_neg]
  exact fun hlen => hq (List.length_eq_zero_iff.1 hlen)

theorem Accepted.holdsUnacked
    (h : Accepted cfg pcb finSent c segAck c') :
    HoldsUnacked c.tcb := by
  have hpos := h.clean.pos
  have hwithin := h.clean.within
  right
  rw [← List.length_pos_iff]
  omega

/-- In `TS_ESTABLISHED` an empty queue means that nothing is in flight. -/
theorem ackArrived_rto_estab
    (hcfg : ConfigOk cfg)
    (h : QueueFlight cfg 0 c.tcb)
    (hrto : HoldsUnacked c.tcb → c.tcb.onRtoList = true) :
    HoldsUnacked (ackArrived pcb false c).tcb →
      (ackArrived pcb false c).tcb.onRtoList = true := by
  intro hholds
  rcases ackArrived_spec pcb false hcfg h.queue with heq | ⟨segAck, hacc⟩
  · rw [heq] at hholds ⊢
    exact hrto hholds
  · by_cases hq : queued (ackArrived pcb false c).tcb = []
    · have hbound := (h.ackArrived pcb false hcfg).flight
      rw [hq] at hbound
      have hzero := flight_eq_zero.1 (Nat.le_zero.1 hbound)
      rcases hholds with hne | hne
      · exact absurd hzero hne
      · exact absurd hq hne
    · rw [Accepted.rto_of_queued hacc hq]
      exact hrto (Accepted.holdsUnacked hacc)

/-- With a FIN outstanding the timer is cancelled by the ACK of that FIN only. -/
theorem ackArrived_rto_fin
    {k : Nat}
    (hcfg : ConfigOk cfg)
    (h : QueueFlight cfg k c.tcb)
    (hk : k < 2 ^ 16)
    (hrto : HoldsUnacked c.tcb → c.tcb.onRtoList = true)
    (hleft :
      segGT pcb.recvAck c.tcb.snd.una = true → segLE pcb.recvAck c.tcb.snd.nxt = true →
        pcb.recvAck ≠ c.tcb.snd.nxt →
        (pcb.recvAck - c.tcb.snd.una).toNat ≠ (queued c.tcb).length) :
    queued (ackArrived pcb true c).tcb ≠ [] ∨
        ourFinAcked pcb (ackArrived pcb true c).tcb = false →
      HoldsUnacked (ackArrived pcb true c).tcb →
        (ackArrived pcb true c).tcb.onRtoList = true := by
  intro hnot hholds
  rcases ackArrived_spec pcb true hcfg h.queue with heq | ⟨segAck, hacc⟩
  · rw [heq] at hholds ⊢
    exact hrto hholds
  by_cases hq : queued (ackArrived pcb true c).tcb = []
  · have hnotours := hnot.resolve_left (not_not_intro hq)
    have hlen := congrArg List.length hacc.clean.cleaned.bytes
    rw [hq, List.length_drop, List.length_nil] at hlen
    have hwithin := hacc.clean.within
    have hpos := hacc.clean.pos
    have hin := hacc.inFlight
    have hw := hcfg.winSize
    have hb : (queued c.tcb).length ≤ cfg.sockopt.tcpoWinSize.toNat := h.queue.bounded
    have hlt := h.flight_lt hcfg
    rcases hacc.ack with ⟨rfl, hnofin⟩ | ⟨rfl, -, hnxt⟩
    · have hne : pcb.recvAck ≠ c.tcb.snd.nxt := fun heq => hnofin ⟨rfl, heq⟩
      refine absurd (by omega) (hleft ?_ ?_ hne)
      · rw [segGT, segLT_iff]
        omega
      · rw [segLE_iff]
        rw [flight] at hin hlt
        bv_omega
    · rw [ourFinAcked, hacc.clean.cleaned.snd] at hnotours
      simp [hnxt] at hnotours
  · rw [Accepted.rto_of_queued hacc hq]
    exact hrto (Accepted.holdsUnacked hacc)

end Acknowledgements

section Steps

variable {pcb : Pcb} {c : Tsm}

theorem acked_holdsUnacked
    (pcb : Pcb) (finSent : Bool) (c : Tsm) :
    HoldsUnacked (acked pcb finSent c).tcb ↔ HoldsUnacked (ackArrived pcb finSent c).tcb := by
  simp only [acked, onTcb_tcb, updateSndWnd]
  split <;> exact Iff.rfl

theorem ackArrived_slow
    (pcb : Pcb) (finSent : Bool) (c : Tsm) :
    (ackArrived pcb finSent c).tcb.onSlowList = c.tcb.onSlowList := by
  have hclean : ∀ a, (tsmCleanupRetransQueu c a).tcb.onSlowList = c.tcb.onSlowList := by
    intro a
    simp only [tsmCleanupRetransQueu]
    repeat' split
    all_goals rfl
  exact ackArrived_elim (P := fun c' => c'.tcb.onSlowList = c.tcb.onSlowList) rfl
    (fun _ _ _ => hclean _) (fun _ _ _ => hclean _)

theorem estab_timed
    (env : TsmEnv)
    (hcfg : ConfigOk env.cfg)
    (htimers : TimersInRange env.cfg)
    (hinv : SessionInv env.cfg c.tcb)
    (hlive : c.tcb.inHtable = true)
    (hstate : c.tcb.state = .established) :
    Timed (estabSegment env pcb c).tcb := by
  have hat := hinv.send.at hlive
  rw [hstate] at hat
  have hrto := (hinv.timers hlive).estab hstate
  have hackat := hat.acked pcb false hcfg
  have hackrto : HoldsUnacked (ackArrived pcb false c).tcb →
      (ackArrived pcb false c).tcb.onRtoList = true :=
    ackArrived_rto_estab hcfg hat.bound hrto
  refine estabSegment_elim (P := fun c' => Timed c'.tcb)
    (fun c' hq => Timed.same hinv.timers hq.same) (fun c' _ => timed_closed _) ?_ ?_ ?_
  · intro hunusable
    rw [ackArrived_of_unusable hcfg hat.bound (by decide) hunusable]
    exact hinv.timers
  · rintro - c' hdone
    rcases hdone.of_open (Or.inl hackat.state) with hkept | ⟨-, c₁, hbefore, hafter⟩
    · refine Timed.same (fun _ => timerInv_estab hackat.state ?_) hkept.same
      rw [acked_holdsUnacked, (acked_fields pcb false c).2.2.2.1]
      exact hackrto
    · refine Timed.same (fun _ => ?_) hafter.same
      exact enterFinWaitI_timed (c := c₁.tcpNotif .sessClosing) hcfg htimers
        (hackat.bound.same hbefore.same) (by decide)
  · rintro - hfin c' hdone
    rcases hackat.textDone (Or.inl rfl) hcfg (by decide) hdone with hkept | ⟨-, hclosed⟩
    · exact fun _ => enterCloseWait_timed (c := c'.tcpNotif .sessClosing) hcfg htimers
        hkept.bound (by decide)
    · exact fun _ => enterCloseWait_timed (c := c'.tcpNotif .sessClosing) hcfg htimers
        hclosed.bound (by decide)

theorem synSent_timed
    (env : TsmEnv)
    (hcfg : ConfigOk env.cfg)
    (htimers : TimersInRange env.cfg)
    (hinv : SessionInv env.cfg c.tcb)
    (hlive : c.tcb.inHtable = true)
    (hstate : c.tcb.state = .synSent) :
    Timed (synSentSegment env pcb c).tcb := by
  obtain ⟨huna, hnxt, hempty⟩ := hinv.send.handshake hlive (Or.inl hstate)
  have hqueue := (hinv.send.bound hlive).queue
  refine synSentSegment_elim (P := fun c' => Timed c'.tcb) huna hnxt
    (fun c' hq => Timed.same hinv.timers hq.same) (fun c' _ => timed_closed _) ?_ ?_
  · rintro - c' hq -
    have hne : c'.tcb.snd.una ≠ c'.tcb.snd.nxt := by
      rw [hq.same.snd, huna, hnxt]
      bv_omega
    have harmed := schedule_arms ((setState .synRecv c').tcpNotif .sessSrvConnected).tcb hcfg
      htimers (hq.same.retrans ▸ hqueue) (Or.inl hne)
    have heq : (enterSynRecv env.cfg c').tcb = tsmScheduleRetransmission env.cfg
      ((setState .synRecv c').tcpNotif .sessSrvConnected).tcb := rfl
    refine timerInv_handshake (Or.inr ?_) (heq ▸ harmed)
    rw [heq, tsmScheduleRetransmission_eq]
    rfl
  · intro c' hq c₁ hdone c₂ hq₂
    rcases hdone.of_synSent (hq.same.state.trans hstate) with hkept | ⟨-, c₀, -, hafter⟩
    · refine Timed.same (fun _ => timerInv_estab rfl fun hholds => ?_) hq₂.same
      -- the SYN was all that was in flight
      have hsnd : c₁.tcb.snd.una = c₁.tcb.snd.nxt := by
        rw [hkept.same.snd]
        change c'.tcb.snd.una + 1 = c'.tcb.snd.nxt
        rw [hq.same.snd, huna, hnxt]
      have hq' : queued c₁.tcb = [] := by
        rw [queued, hkept.same.retrans]
        change queued c'.tcb = []
        rw [queued, hq.same.retrans]
        exact hempty
      rcases hholds with hne | hne
      · exact absurd hsnd hne
      · exact absurd hq' hne
    · intro hlive₂
      rw [hq₂.same.inHtable, show (enterEstablished (c₁.onTcb tcpTimerRtoCancel)).tcb.inHtable =
        c₁.tcb.inHtable from rfl, hafter.same.inHtable,
        show (notifyAndClose c₀).tcb.inHtable = false from (tcpSilentClose_dead _).1] at hlive₂
      cases hlive₂

theorem synRecv_timed
    {i : ConnInput}
    (env : TsmEnv)
    (hcfg : ConfigOk env.cfg)
    (htimers : TimersInRange env.cfg)
    (hinv : SessionInv env.cfg c.tcb)
    (hlive : c.tcb.inHtable = true)
    (hstate : c.tcb.state = .synRecv)
    (hanswer : env.answer = i.answer)
    (hevent : i.event = .segment pcb)
    (hkeeps : KeepsTimers c.tcb i) :
    Timed (synRecvSegment env pcb c).tcb := by
  obtain ⟨huna, hnxt, hempty⟩ := hinv.send.handshake hlive (Or.inr hstate)
  have hbound := hinv.send.bound hlive
  rw [hstate] at hbound
  refine synRecvSegment_elim (P := fun c' => Timed c'.tcb) huna hnxt
    (fun c' hq => Timed.same hinv.timers hq.same) (fun c' _ => timed_closed _) ?_
  intro hreach c₀ hc₀ c' hdone
  have hopen : (c₀.onTcb (setSndWnd pcb)).tcb.state = .established ∨
      (c₀.onTcb (setSndWnd pcb)).tcb.state = .synRecv := by
    rcases hc₀ with ⟨-, rfl⟩ | ⟨-, rfl⟩ <;> exact Or.inr hstate
  have hflight : QueueFlight env.cfg 1 (c₀.onTcb (setSndWnd pcb)).tcb := by
    rcases hc₀ with ⟨-, rfl⟩ | ⟨-, rfl⟩
    · exact hbound.of_eq rfl rfl rfl
    · have hne : c.tcb.snd.una ≠ c.tcb.snd.nxt := by
        rw [huna, hnxt]
        bv_omega
      have hdec := flight_incUna hne
      have hf := hbound.flight
      have hinc : QueueFlight env.cfg 1 (incUna c).tcb := by
        refine ⟨hbound.queue, ?_⟩
        have hq : queued (incUna c).tcb = queued c.tcb := rfl
        rw [hq]
        simp only [Slack.of] at hf
        omega
      exact hinc.of_eq rfl rfl rfl
  refine ⟨fun hno => ?_, fun _ => ?_⟩
  · -- `TS_ESTABLISHED`: the segment acknowledges the SYN, and nothing else was in flight
    have hnew : c₀ = incUna c := by
      rcases hc₀ with ⟨hold, -⟩ | ⟨-, hnew⟩
      · rw [hkeeps.synUnacked pcb hstate hevent hreach hold] at hno
        cases hno
      · exact hnew
    rcases hdone.of_open hopen with hkept | ⟨hasks, -⟩
    · refine fun _ => timerInv_estab rfl fun hholds => ?_
      have hsnd : c'.tcb.snd.una = c'.tcb.snd.nxt := by
        rw [hkept.same.snd, hnew]
        change c.tcb.snd.una + 1 = c.tcb.snd.nxt
        rw [huna, hnxt]
      have hq' : queued c'.tcb = [] := by
        rw [queued, hkept.same.retrans, hnew]
        exact hempty
      rcases hholds with hne | hne
      · exact absurd hsnd hne
      · exact absurd hq' hne
    · have hcloses := synRecvCloses_of huna hnxt hreach hc₀ hasks
      rw [hanswer] at hcloses
      rw [hkeeps.closeMidway pcb hstate hevent hcloses] at hno
      cases hno
  · have hat : At env.cfg .synRecv 1 (c₀.onTcb (setSndWnd pcb)).tcb := by
      refine ⟨?_, ?_, hflight⟩ <;> rcases hc₀ with ⟨-, rfl⟩ | ⟨-, rfl⟩
      · exact hlive
      · exact hlive
      · exact hstate
      · exact hstate
    rcases hat.textDone (Or.inr rfl) hcfg (by decide) hdone with hkept | ⟨-, hclosed⟩
    · exact fun _ => enterCloseWait_timed (c := c'.tcpNotif .sessClosing) hcfg htimers
        hkept.bound (by decide)
    · exact fun _ => enterCloseWait_timed (c := c'.tcpNotif .sessClosing) hcfg htimers
        hclosed.bound (by decide)

theorem finWaitI_timed
    {i : ConnInput}
    (env : TsmEnv)
    (hcfg : ConfigOk env.cfg)
    (htimers : TimersInRange env.cfg)
    (hinv : SessionInv env.cfg c.tcb)
    (hlive : c.tcb.inHtable = true)
    (hstate : c.tcb.state = .finWaitI)
    (hevent : i.event = .segment pcb)
    (hkeeps : KeepsTimers c.tcb i) :
    Timed (finWaitISegment env pcb c).tcb := by
  have hat := hinv.send.at hlive
  rw [hstate] at hat
  obtain ⟨hslow, hrto⟩ := (hinv.timers hlive).finWaitI hstate
  have hackat := hat.acked pcb true hcfg
  obtain ⟨huna, hnxt, hretrans, honrto, honslow⟩ := acked_fields pcb true c
  have hslow' : (acked pcb true c).tcb.onSlowList = true := by
    rw [honslow, ackArrived_slow, hslow]
  have hours : ourFinAcked pcb (acked pcb true c).tcb =
      ourFinAcked pcb (ackArrived pcb true c).tcb := by
    rw [ourFinAcked, ourFinAcked, huna, hnxt]
  have hackrto : ReachesAck c.tcb pcb →
      queued (acked pcb true c).tcb ≠ [] ∨ ourFinAcked pcb (acked pcb true c).tcb = false →
        HoldsUnacked (acked pcb true c).tcb → (acked pcb true c).tcb.onRtoList = true := by
    intro hreach
    rw [acked_holdsUnacked, honrto, queued, hretrans, hours]
    exact ackArrived_rto_fin hcfg hat.bound (by decide) hrto
      (hkeeps.finLeft pcb (Or.inl hstate) hevent hreach)
  refine finWaitISegment_elim (P := fun c' => Timed c'.tcb) hackat.state
    (fun c' hq => Timed.same hinv.timers hq.same) (fun c' _ => timed_closed _) ?_ ?_ ?_ ?_ ?_ ?_
  · intro hunusable
    rw [ackArrived_of_unusable hcfg hat.bound (by decide) hunusable]
    exact hinv.timers
  · intro hreach hnot c' hq
    exact Timed.same (fun _ => timerInv_finWaitI hackat.state hslow'
      (hackrto hreach (Or.inr hnot))) hq.same
  · intro hreach hnot hfin c' hq
    have hne : c.tcb.snd.una ≠ c.tcb.snd.nxt := by
      intro heq
      rw [hkeeps.finTwice pcb hstate hevent hreach heq] at hfin
      cases hfin
    have hne' : (ackArrived pcb true c).tcb.snd.una ≠ (ackArrived pcb true c).tcb.snd.nxt := by
      rcases ackArrived_spec pcb true hcfg hat.bound.queue with heq | ⟨segAck, hacc⟩
      · rw [heq]
        exact hne
      · exact hacc.fin_left
    refine fun _ => enterClosing_timed (c := c'.onTcb tcpTimerSlowCancel) hcfg htimers
      (hackat.bound.same hq.same).queue ?_
    change c'.tcb.snd.una ≠ c'.tcb.snd.nxt
    rw [hq.same.snd, huna, hnxt]
    exact hne'
  · intro hreach hacked hfin c' hq
    suffices htimed : TimerInv (incUna (acked pcb true c)).tcb from
      Timed.same (fun _ => htimed) hq.same
    refine timerInv_finWaitI hackat.state hslow' fun hholds => ?_
    have hone := (ourFinAcked_flight hacked).1
    have hdec := flight_incUna (ourFinAcked_flight hacked).2
    have hq' : queued (acked pcb true c).tcb ≠ [] := by
      rcases hholds with hne | hne
      · exact absurd (flight_eq_zero.1 (by omega)) hne
      · exact hne
    exact hackrto hreach (Or.inl hq') (Or.inr hq')
  · intro hreach hacked c' hq
    exact fun _ => enterFinWaitII_timed htimers _
  · intro hreach hacked c' hq
    exact enterTimeWait_timed htimers _

theorem finWaitII_timed
    (env : TsmEnv)
    (hcfg : ConfigOk env.cfg)
    (htimers : TimersInRange env.cfg)
    (hinv : SessionInv env.cfg c.tcb)
    (hlive : c.tcb.inHtable = true)
    (hstate : c.tcb.state = .finWaitII) :
    Timed (finWaitIISegment env pcb c).tcb := by
  have hat := hinv.send.at hlive
  rw [hstate] at hat
  have hackat := hat.acked pcb false hcfg
  have hslow' : (acked pcb false c).tcb.onSlowList = true := by
    rw [(acked_fields pcb false c).2.2.2.2, ackArrived_slow]
    exact (hinv.timers hlive).waiting (Or.inl hstate)
  refine finWaitIISegment_elim (P := fun c' => Timed c'.tcb) hackat.state
    (fun c' hq => Timed.same hinv.timers hq.same) (fun c' _ => timed_closed _) ?_ ?_ ?_
  · intro hunusable
    rw [ackArrived_of_unusable hcfg hat.bound (by decide) hunusable]
    exact hinv.timers
  · intro hreach c' hq
    exact Timed.same (fun _ => timerInv_waiting (Or.inl hackat.state) hslow') hq.same
  · intro hreach c' hq c'' hq'
    exact enterTimeWait_timed htimers _

theorem closing_timed
    {i : ConnInput}
    (env : TsmEnv)
    (hcfg : ConfigOk env.cfg)
    (htimers : TimersInRange env.cfg)
    (hinv : SessionInv env.cfg c.tcb)
    (hlive : c.tcb.inHtable = true)
    (hstate : c.tcb.state = .closing)
    (hevent : i.event = .segment pcb)
    (hkeeps : KeepsTimers c.tcb i) :
    Timed (closingSegment env pcb c).tcb := by
  have hat := hinv.send.at hlive
  rw [hstate] at hat
  obtain ⟨hne, hrto⟩ := (hinv.timers hlive).lastAck (Or.inr hstate)
  have hackat := hat.acked pcb true hcfg
  obtain ⟨huna, hnxt, hretrans, honrto, -⟩ := acked_fields pcb true c
  refine closingSegment_elim (P := fun c' => Timed c'.tcb)
    (fun c' hq => Timed.same hinv.timers hq.same) (fun c' _ => timed_closed _) ?_ ?_ ?_
  · intro hunusable
    rw [ackArrived_of_unusable hcfg hat.bound (by decide) hunusable]
    exact hinv.timers
  · intro hreach hnot _
    have hne' : (ackArrived pcb true c).tcb.snd.una ≠ (ackArrived pcb true c).tcb.snd.nxt := by
      rcases ackArrived_spec pcb true hcfg hat.bound.queue with heq | ⟨segAck, hacc⟩
      · rw [heq]
        exact hne
      · exact hacc.fin_left
    refine timerInv_lastAck (Or.inr hackat.state) ?_ ?_
    · rw [huna, hnxt]
      exact hne'
    · rw [honrto]
      rw [ourFinAcked, huna, hnxt, ← ourFinAcked] at hnot
      exact ackArrived_rto_fin hcfg hat.bound (by decide) (fun _ => hrto)
        (hkeeps.finLeft pcb (Or.inr hstate) hevent hreach) (Or.inr hnot) (Or.inl hne')
  · intro hreach hacked
    exact enterTimeWait_timed htimers _

theorem timeWait_timed
    (env : TsmEnv)
    (htimers : TimersInRange env.cfg)
    (hinv : SessionInv env.cfg c.tcb)
    (hstate : c.tcb.state = .timeWait) :
    Timed (timeWaitSegment env pcb c).tcb := by
  refine timeWaitSegment_elim (P := fun c' => Timed c'.tcb)
    (fun c' hq => Timed.same hinv.timers hq.same) (fun c' _ => timed_closed _) ?_
  intro c' hq _
  rw [onTcb_tcb, Function.comp_apply]
  refine timerInv_waiting (Or.inr ?_) (slowSet_arms htimers.twait _)
  rw [tcpTimerSlowSet_eq]
  exact hq.same.state.trans hstate

theorem tsmSend_timed
    {data : TsmDataArg}
    (env : TsmEnv)
    (hcfg : ConfigOk env.cfg)
    (htimers : TimersInRange env.cfg)
    (hinv : SessionInv env.cfg c.tcb)
    (hlive : c.tcb.inHtable = true)
    (hdata : SendChainOk c.tcb data.tdaMbuf) :
    Timed (tsmSend env c data).tcb := by
  have hbound := hinv.send.bound hlive
  have hkeep : Timed (c.fail .enotconn).tcb := hinv.timers
  cases hstate : c.tcb.state with
  | established =>
      rw [hstate] at hbound
      have hrun : tsmSend env c data = tsmSendData env c data := by
        simp only [tsmSend, hstate]
      obtain ⟨hs, -⟩ := tcpDataSend_state hcfg.mtu hbound.queue hdata
      have hsent := hbound.tcpDataSend hcfg hdata
      rw [hrun, tsmSendData, notifyWinUnavail_tcb, onTcb_tcb]
      refine fun _ => timerInv_estab ?_ fun hholds => ?_
      · rw [tsmScheduleRetransmission_eq]
        exact hs.trans hstate
      · refine schedule_arms _ hcfg htimers hsent.queue ?_
        rw [tsmScheduleRetransmission_eq] at hholds
        exact hholds
  | closeWait =>
      exact absurd hstate (hinv.send.resting hlive).2.1
  | init | listen | synSent | synRecv | finWaitI | finWaitII | lastAck | closing | timeWait
  | closed =>
      simpa only [tsmSend, hstate] using hkeep

theorem tsmClose_timed
    {cfg : TcpConfig}
    (hcfg : ConfigOk cfg)
    (htimers : TimersInRange cfg)
    (hinv : SessionInv cfg c.tcb)
    (hlive : c.tcb.inHtable = true) :
    Timed (tsmClose cfg c).tcb := by
  have hbound := hinv.send.bound hlive
  have hkeep : Timed (c.fail .enotconn).tcb := hinv.timers
  cases hstate : c.tcb.state with
  | init =>
      exact absurd hstate (hinv.send.resting hlive).1
  | closeWait =>
      exact absurd hstate (hinv.send.resting hlive).2.1
  | listen | synSent =>
      simp only [tsmClose, hstate]
      exact timed_closed _
  | synRecv | established =>
      rw [hstate] at hbound
      simp only [tsmClose, hstate]
      exact fun _ => enterFinWaitI_timed (c := c.tcpNotif .sessClosing) hcfg htimers hbound
        (by decide)
  | finWaitI | finWaitII | lastAck | closing | timeWait | closed =>
      simpa only [tsmClose, hstate] using hkeep

/-- After a retransmission the timer is started again. -/
theorem retransOrClose_rto
    {limit : BitVec 8} {giveUp resend : Tsm → Tsm}
    (env : TsmEnv)
    (hcfg : ConfigOk env.cfg)
    (htimers : TimersInRange env.cfg)
    (hgive : Timed (giveUp c).tcb)
    (hqueue : QueueOk env.cfg.sockopt.tcpoWinSize.toNat (resend c).tcb.retrans)
    (hresend :
      ∀ rto cnt,
        (HoldsUnacked (resend c).tcb → rto = true) →
          TimerInv { (resend c).tcb with onRtoList := rto, retransCnt := cnt }) :
    Timed (retransOrClose env limit giveUp resend c).tcb := by
  unfold retransOrClose
  split
  · exact hgive
  · rw [onTcb_tcb, tsmScheduleRetransmission_eq]
    exact fun _ => hresend _ _ (schedule_arms _ hcfg htimers hqueue)

theorem tcpHandleRetransTo_timed
    (env : TsmEnv)
    (hcfg : ConfigOk env.cfg)
    (htimers : TimersInRange env.cfg)
    (hinv : SessionInv env.cfg c.tcb)
    (hlive : c.tcb.inHtable = true) :
    Timed (tcpHandleRetransTo env c).tcb := by
  have hbound := hinv.send.bound hlive
  have hqueue := hbound.queue
  have htimed := hinv.timers hlive
  unfold tcpHandleRetransTo tsmRetransmissionTimeout
  cases hstate : c.tcb.state with
  | synSent | synRecv =>
      obtain ⟨huna, hnxt, -⟩ := hinv.send.handshake hlive (by simp [hstate])
      have hne : c.tcb.snd.una ≠ c.tcb.snd.nxt := by
        rw [huna, hnxt]
        bv_omega
      simp only [onTcb_tcb, hstate]
      exact retransOrClose_rto env hcfg htimers (timed_closed _) hqueue
        fun rto cnt hrto => timerInv_handshake (by simp [hstate]) (hrto (Or.inl hne))
  | finWaitI =>
      simp only [onTcb_tcb, hstate]
      exact retransOrClose_rto env hcfg htimers (timed_closed _) hqueue
        fun rto cnt hrto => timerInv_finWaitI hstate (htimed.finWaitI hstate).1 hrto
  | lastAck | closing =>
      have hs : c.tcb.state = .lastAck ∨ c.tcb.state = .closing := by
        simp [hstate]
      have hne := (htimed.lastAck hs).1
      simp only [onTcb_tcb, hstate]
      exact retransOrClose_rto env hcfg htimers (timed_closed _) hqueue
        fun rto cnt hrto => timerInv_lastAck hs hne (hrto (Or.inl hne))
  | established =>
      rw [hstate] at hbound
      have hat : At env.cfg .established 0 (c.onTcb fun tcb =>
          { tcb with onRtoList := false, retransCnt := tcb.retransCnt + 1 }).tcb :=
        ⟨hlive, hstate, hbound.of_eq rfl rfl rfl⟩
      have hsent := tsmRetransData_at hcfg hat
      simp only [onTcb_tcb, hstate]
      exact retransOrClose_rto env hcfg htimers (timed_closed _) hsent.bound.queue
        fun rto cnt hrto => timerInv_estab hsent.state hrto
  | closeWait =>
      exact absurd hstate (hinv.send.resting hlive).2.1
  | init =>
      exact absurd hstate (hinv.send.resting hlive).1
  | closed =>
      exact absurd hstate (hinv.send.resting hlive).2.2
  | listen =>
      simp only [onTcb_tcb, hstate]
      exact fun _ => timerInv_listen rfl
  | finWaitII | timeWait =>
      simp only [onTcb_tcb, hstate]
      exact fun _ => timerInv_waiting (by simp) (htimed.waiting (by simp [hstate]))

theorem tcpHandleSlowTo_timed
    (env : TsmEnv)
    (hinv : SessionInv env.cfg c.tcb)
    (hlive : c.tcb.inHtable = true) :
    Timed (tcpHandleSlowTo env c).tcb := by
  have htimed := hinv.timers hlive
  unfold tcpHandleSlowTo
  cases hstate : c.tcb.state with
  | finWaitI | finWaitII | timeWait =>
      simp only [onTcb_tcb, hstate, tsmDispatchEvent, closeIn, if_true]
      exact timed_closed _
  | init =>
      exact absurd hstate (hinv.send.resting hlive).1
  | closeWait =>
      exact absurd hstate (hinv.send.resting hlive).2.1
  | closed =>
      exact absurd hstate (hinv.send.resting hlive).2.2
  | listen =>
      simp only [onTcb_tcb, hstate]
      exact fun _ => timerInv_listen rfl
  | synSent | synRecv =>
      simp only [onTcb_tcb, hstate]
      exact fun _ => timerInv_handshake (by simp) (htimed.handshake (by simp [hstate]))
  | established =>
      simp only [onTcb_tcb, hstate]
      exact fun _ => timerInv_estab rfl (htimed.estab hstate)
  | lastAck | closing =>
      obtain ⟨hne, hrto⟩ := htimed.lastAck (by simp [hstate])
      simp only [onTcb_tcb, hstate]
      exact fun _ => timerInv_lastAck (by simp) hne hrto

theorem synInFlight_timed
    {cfg : TcpConfig} {s : TcpState} {tcb : Tcb}
    (hcfg : ConfigOk cfg)
    (htimers : TimersInRange cfg)
    (h : SynInFlight s tcb)
    (hs : s = .synSent ∨ s = .synRecv) :
    Timed (tsmScheduleRetransmission cfg tcb) := by
  have hne : tcb.snd.una ≠ tcb.snd.nxt := by
    rw [h.una, h.nxt]
    decide
  refine fun _ => timerInv_handshake ?_
    (schedule_arms tcb hcfg htimers (h.retrans ▸ queueOk_empty _) (Or.inl hne))
  rw [tsmScheduleRetransmission_eq]
  simp only [h.state]
  exact hs

theorem opened_timed
    (env : TsmEnv)
    (hcfg : ConfigOk env.cfg)
    (htimers : TimersInRange env.cfg)
    (active : Bool) :
    Timed (tcpOpenV4Connection env active c).tcb := by
  cases active with
  | false =>
      exact fun _ => timerInv_listen rfl
  | true =>
      obtain ⟨tcb, heq, hsyn⟩ := openedActive_eq env c
      rw [heq]
      exact synInFlight_timed hcfg htimers hsyn (Or.inl rfl)

theorem accepted_timed
    (env : TsmEnv)
    (hcfg : ConfigOk env.cfg)
    (htimers : TimersInRange env.cfg)
    (syn : Pcb) :
    Timed (listenClone env syn (listenerTcb env)).tcb := by
  obtain ⟨tcb, heq, hsyn⟩ := accepted_eq env syn
  rw [heq]
  exact synInFlight_timed hcfg htimers hsyn (Or.inr rfl)

end Steps

section Runs

variable {cfg : TcpConfig}

/-- Outside the defects the allowance without the SYN fits. -/
theorem slackFits_of_keepsTimers
    {tcb : Tcb} {i : ConnInput}
    (hkeeps : KeepsTimers tcb i) :
    SlackFits cfg tightEstab tcb i := by
  refine ⟨by decide, by decide, by decide, fun _ _ => by decide, ?_, ?_,
    fun _ _ _ _ => by decide⟩
  · intro pcb hstate hevent hcloses
    refine ⟨fun hno => ?_, fun _ => by decide⟩
    rw [hkeeps.closeMidway pcb hstate hevent hcloses] at hno
    cases hno
  · intro pcb hstate hevent hreach hack
    refine ⟨fun hno => ?_, fun _ => by decide⟩
    rw [hkeeps.synUnacked pcb hstate hevent hreach hack] at hno
    cases hno

theorem timerInv_step
    {tcb : Tcb} {i : ConnInput}
    (hcfg : ConfigOk cfg)
    (htimers : TimersInRange cfg)
    (hinv : SessionInv cfg tcb)
    (hlegal : ConnLegal tcb i)
    (hkeeps : KeepsTimers tcb i) :
    SessionInv cfg (connStep cfg tcb i).tcb := by
  refine ⟨sendInv_step hcfg hinv.send hlegal (slackFits_of_keepsTimers hkeeps), ?_⟩
  change Timed (connStep cfg tcb i).tcb
  unfold connStep
  cases hevent : i.event with
  | «open» active =>
      exact opened_timed (i.env cfg) hcfg htimers active
  | accept syn =>
      exact accepted_timed (i.env cfg) hcfg htimers syn
  | send data =>
      simp only [ConnLegal, hevent] at hlegal
      exact tsmSend_timed (c := Tsm.start tcb) (i.env cfg) hcfg htimers hinv hlegal.1 hlegal.2
  | close =>
      simp only [ConnLegal, hevent] at hlegal
      exact tsmClose_timed (c := Tsm.start tcb) hcfg htimers hinv hlegal
  | rtoTimer =>
      simp only [ConnLegal, hevent] at hlegal
      exact tcpHandleRetransTo_timed (c := Tsm.start tcb) (i.env cfg) hcfg htimers hinv
        (hinv.send.live_of_timer (Or.inl hlegal))
  | slowTimer =>
      simp only [ConnLegal, hevent] at hlegal
      exact tcpHandleSlowTo_timed (c := Tsm.start tcb) (i.env cfg) hinv
        (hinv.send.live_of_timer (Or.inr hlegal))
  | purge =>
      exact timed_closed _
  | segment pcb =>
      simp only [ConnLegal, hevent] at hlegal
      have hinv' : SessionInv cfg (Tsm.start tcb).tcb := hinv
      unfold tsmSegmentArrives
      cases hstate : tcb.state with
      | init =>
          exact absurd hstate (hinv.send.resting hlegal).1
      | closeWait =>
          exact absurd hstate (hinv.send.resting hlegal).2.1
      | closed =>
          exact absurd hstate (hinv.send.resting hlegal).2.2
      | listen =>
          simp only [Tsm.start, hstate]
          exact listenSegment_elim (P := fun c' => Timed c'.tcb)
            fun c' hq => Timed.same hinv.timers hq.same
      | synSent =>
          simp only [Tsm.start, hstate]
          exact synSent_timed (i.env cfg) hcfg htimers hinv' hlegal hstate
      | synRecv =>
          simp only [Tsm.start, hstate]
          exact synRecv_timed (i := i) (i.env cfg) hcfg htimers hinv' hlegal hstate rfl hevent
            hkeeps
      | established =>
          simp only [Tsm.start, hstate]
          exact estab_timed (i.env cfg) hcfg htimers hinv' hlegal hstate
      | finWaitI =>
          simp only [Tsm.start, hstate]
          exact finWaitI_timed (i := i) (i.env cfg) hcfg htimers hinv' hlegal hstate hevent
            hkeeps
      | finWaitII =>
          simp only [Tsm.start, hstate]
          exact finWaitII_timed (i.env cfg) hcfg htimers hinv' hlegal hstate
      | lastAck =>
          simp only [Tsm.start, hstate]
          exact lastAckSegment_elim (P := fun c' => Timed c'.tcb)
            (fun c' hq => Timed.same hinv.timers hq.same) fun c' _ => timed_closed _
      | closing =>
          simp only [Tsm.start, hstate]
          exact closing_timed (i := i) (i.env cfg) hcfg htimers hinv' hlegal hstate hevent
            hkeeps
      | timeWait =>
          simp only [Tsm.start, hstate]
          exact timeWait_timed (i.env cfg) htimers hinv' hstate

theorem sessionInv_blank :
    SessionInv cfg blankTcb :=
  ⟨blankTcb_sendInv, fun hlive => by cases hlive⟩

/-- A step that can happen, and that does not reach one of the defects. -/
def TimerOk (tcb : Tcb) (i : ConnInput) : Prop :=
  ConnLegal tcb i ∧ KeepsTimers tcb i

/-- The invariant holds after every run made of such steps. -/
theorem sessionInv_run
    {is : List ConnInput}
    (hcfg : ConfigOk cfg)
    (htimers : TimersInRange cfg)
    (hrun : Guarded (tcbStep cfg) TimerOk blankTcb is) :
    SessionInv cfg (run (tcbStep cfg) blankTcb is) :=
  run_invariant (SessionInv cfg)
    (fun _ _ hinv hok => timerInv_step hcfg htimers hinv hok.1 hok.2) sessionInv_blank hrun

end Runs

section Results

/-- The states in which the peer, or a timer, has to make the next move. -/
def Waits (s : TcpState) : Prop :=
  s = .synSent ∨ s = .synRecv ∨ s = .finWaitI ∨ s = .finWaitII ∨ s = .closing ∨
    s = .lastAck ∨ s = .timeWait

/--
No orphan: what is not acknowledged has the retransmission timer running, the two last
waiting states have the slow timer running, and a session that waits has one of them.
-/
structure NotOrphaned (tcb : Tcb) : Prop where
  rto :
    tcb.state ∈ [.synSent, .synRecv, .established, .finWaitI, .closeWait, .closing, .lastAck] →
      HoldsUnacked tcb → tcb.onRtoList = true
  slow : tcb.state = .finWaitII ∨ tcb.state = .timeWait → tcb.onSlowList = true
  waits : Waits tcb.state → tcb.onRtoList = true ∨ tcb.onSlowList = true

/-- In a run that does not reach one of the defects no open session is orphaned. -/
theorem session_not_orphaned
    (cfg : TcpConfig)
    (hcfg : ConfigOk cfg)
    (htimers : TimersInRange cfg)
    (is : List ConnInput)
    (hrun : Guarded (tcbStep cfg) TimerOk blankTcb is)
    (hlive : (run (tcbStep cfg) blankTcb is).inHtable = true) :
    NotOrphaned (run (tcbStep cfg) blankTcb is) := by
  have hinv := sessionInv_run hcfg htimers hrun
  have hresting := hinv.send.resting hlive
  have htimed := hinv.timers hlive
  refine ⟨fun hstate hholds => ?_, htimed.waiting, fun hwaits => ?_⟩
  · simp only [List.mem_cons, List.not_mem_nil, or_false] at hstate
    rcases hstate with hs | hs | hs | hs | hs | hs | hs
    · exact htimed.handshake (Or.inl hs)
    · exact htimed.handshake (Or.inr hs)
    · exact htimed.estab hs hholds
    · exact (htimed.finWaitI hs).2 hholds
    · exact absurd hs hresting.2.1
    · exact (htimed.lastAck (Or.inr hs)).2
    · exact (htimed.lastAck (Or.inl hs)).2
  · rcases hwaits with hs | hs | hs | hs | hs | hs | hs
    · exact Or.inl (htimed.handshake (Or.inl hs))
    · exact Or.inl (htimed.handshake (Or.inr hs))
    · exact Or.inr (htimed.finWaitI hs).1
    · exact Or.inr (htimed.waiting (Or.inl hs))
    · exact Or.inl (htimed.lastAck (Or.inr hs)).2
    · exact Or.inl (htimed.lastAck (Or.inl hs)).2
    · exact Or.inr (htimed.waiting (Or.inr hs))

/-- Open, connect, send four bytes, close; the peer acknowledges data and FIN together. -/
def closedInOrder : List ConnInput :=
  [.plain (.open true),
   .plain (.segment (plainPcb 100 1 { syn := true, ack := true } [])),
   .plain (plainSend 7 [1, 2, 3, 4]),
   .plain .close,
   .plain (.segment (plainPcb 101 6 { ack := true } []))]

theorem defaultTimers_inRange :
    TimersInRange defaultConfig :=
  ⟨by decide, by decide, by decide, by decide⟩

/-- Outside `TS_SYN_RECV`, `TS_FIN_WAIT_I` and `TS_CLOSING` every step keeps the timers. -/
theorem keepsTimers_of_state
    {tcb : Tcb} {i : ConnInput}
    (hrecv : tcb.state ≠ .synRecv)
    (hwait : tcb.state ≠ .finWaitI)
    (hclosing : tcb.state ≠ .closing) :
    KeepsTimers tcb i := by
  refine ⟨?_, ?_, ?_, ?_⟩
  · exact fun _ h => absurd h hrecv
  · exact fun _ h => absurd h hrecv
  · rintro _ (h | h)
    · exact absurd h hwait
    · exact absurd h hclosing
  · exact fun _ h => absurd h hwait

theorem closedInOrder_ok :
    Guarded (tcbStep defaultConfig) TimerOk blankTcb closedInOrder := by
  refine ⟨⟨by decide, ?_⟩, ⟨by decide, ?_⟩, ⟨by decide, ?_⟩, ⟨by decide, ?_⟩,
    ⟨by decide, ?_⟩, trivial⟩
  · exact keepsTimers_of_state (by decide) (by decide) (by decide)
  · exact keepsTimers_of_state (by decide) (by decide) (by decide)
  · exact keepsTimers_of_state (by decide) (by decide) (by decide)
  · exact keepsTimers_of_state (by decide) (by decide) (by decide)
  · refine ⟨?_, ?_, ?_, ?_⟩
    · exact fun _ h => absurd h (by decide)
    · exact fun _ h => absurd h (by decide)
    · rintro pcb - hevent - - - hne
      cases hevent
      exact absurd (by decide) hne
    · rintro pcb - - - heq
      exact absurd heq (by decide)

theorem session_not_orphaned_closedInOrder :
    NotOrphaned (run (tcbStep defaultConfig) blankTcb closedInOrder) :=
  session_not_orphaned defaultConfig defaultConfig_ok defaultTimers_inRange closedInOrder
    closedInOrder_ok (by decide)

/-- Both sides close, and the peer acknowledges the data before it acknowledges the FIN. -/
def ackedBeforeFin : List ConnInput :=
  [.plain (.open true),
   .plain (.segment (plainPcb 100 1 { syn := true, ack := true } [])),
   .plain (plainSend 7 [1, 2, 3, 4]),
   .plain .close,
   .plain (.segment (plainPcb 101 1 { fin := true, ack := true } [])),
   .plain (.segment (plainPcb 102 5 { ack := true } []))]

/-- The clean-up cancels the only timer while the FIN is outstanding. -/
theorem closing_orphaned :
    Guarded (tcbStep defaultConfig) ConnLegal blankTcb ackedBeforeFin ∧
    (run (tcbStep defaultConfig) blankTcb ackedBeforeFin).inHtable = true ∧
    ¬ NotOrphaned (run (tcbStep defaultConfig) blankTcb ackedBeforeFin) := by
  refine ⟨by decide, by decide, fun h => ?_⟩
  exact absurd (h.waits (by unfold Waits; decide)) (by decide)

end Results

end SessionTimers
end Warp17
