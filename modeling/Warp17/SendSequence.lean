import Warp17.SendInvariants

/-!
# The numbers of the queued bytes

The bytes that the application hands over are numbered from the one after our SYN.  The
queue holds a tail of them, and `SND.UNA` is the number of its first byte: an acknowledgement
moves both, and nothing else moves either.  Together with the bound of `SendInv` this keeps
every subtraction of the sending half from wrapping.

Four defects break it, and `KeepsSequence` leaves out the steps that reach them:

- `TS_SYN_RECV` takes an ACK of nothing for one of our SYN;
- a close in `TS_SYN_RECV` sends a FIN while the SYN is still in flight;
- a callback that closes while the FIN of its segment is processed gets two FINs sent;
- the FIN is numbered as the first unsent byte, and its ACK steps over that byte.

**Results**
- `sequenced_step`: every other step keeps the bytes and their numbers together.
- `send_sequence_ok`: in the runs made of such steps no subtraction wraps.
-/

namespace Warp17
namespace SendSequence

open GuardedRuns SerialArithmetic SequenceComparison MbufChains ControlBlock SendQueue
open RetransmissionQueue TcpStateMachine TransitionPaths ConnectionRuns SendInvariants

/-- The allowance of one FIN, once the SYN is acknowledged. -/
def finOnly : Slack :=
  { estab := 0, finWait := 1, lastAck := 1 }

section Positions

/-- The queue holds the accepted bytes from position `d` on, and `SND.UNA` is the number of `d`. -/
def Positioned (accepted : List UInt8) (tcb : Tcb) : Prop :=
  ∃ d, d ≤ accepted.length ∧ queued tcb = accepted.drop d ∧
    tcb.snd.una = seqAt (tcb.snd.iss + 1) d

/-- The queue and the numbers of its first byte and of our SYN agree. -/
structure SameQueue (t t' : Tcb) : Prop where
  una : t'.snd.una = t.snd.una
  iss : t'.snd.iss = t.snd.iss
  retrans : t'.retrans = t.retrans

variable {accepted : List UInt8}

theorem SameQueue.trans
    {t t' t'' : Tcb}
    (h : SameQueue t t')
    (h' : SameQueue t' t'') :
    SameQueue t t'' :=
  ⟨h'.una.trans h.una, h'.iss.trans h.iss, h'.retrans.trans h.retrans⟩

theorem SameQueue.of_same
    {t t' : Tcb}
    (h : SameSend t t') :
    SameQueue t t' :=
  ⟨by rw [h.snd], by rw [h.snd], h.retrans⟩

theorem Positioned.keep
    {t t' : Tcb}
    (h : Positioned accepted t)
    (hsame : SameQueue t t') :
    Positioned accepted t' := by
  obtain ⟨d, hd, hqueue, huna⟩ := h
  refine ⟨d, hd, ?_, ?_⟩
  · rw [queued, hsame.retrans]
    exact hqueue
  · rw [hsame.una, hsame.iss]
    exact huna

/-- Dropping acknowledged bytes moves `SND.UNA` by as many positions. -/
theorem Positioned.ackArrived
    {cfg : TcpConfig} {c : Tsm}
    (pcb : Pcb) (finSent : Bool)
    (hcfg : ConfigOk cfg)
    (hqueue : QueueOk cfg.sockopt.tcpoWinSize.toNat c.tcb.retrans)
    (h : Positioned accepted c.tcb) :
    Positioned accepted (ackArrived pcb finSent c).tcb := by
  rcases ackArrived_spec pcb finSent hcfg hqueue with heq | ⟨segAck, hacc⟩
  · rw [heq]
    exact h
  · obtain ⟨d, hd, hbytes, huna⟩ := h
    have hwithin := hacc.clean.within
    rw [hbytes, List.length_drop] at hwithin
    refine ⟨d + (segAck - c.tcb.snd.una).toNat, by omega, ?_, ?_⟩
    · rw [hacc.clean.cleaned.bytes, hbytes, List.drop_drop]
    · rw [hacc.clean.cleaned.snd]
      simp only
      rw [← seqAt_add, ← huna, BitVec.ofNat_toNat, BitVec.setWidth_eq]
      abel

theorem sameQueue_updateSndWnd
    (pcb : Pcb) (tcb : Tcb) :
    SameQueue tcb (updateSndWnd pcb tcb) := by
  unfold updateSndWnd
  split <;> exact ⟨rfl, rfl, rfl⟩

theorem Positioned.acked
    {cfg : TcpConfig} {c : Tsm}
    (pcb : Pcb) (finSent : Bool)
    (hcfg : ConfigOk cfg)
    (hqueue : QueueOk cfg.sockopt.tcpoWinSize.toNat c.tcb.retrans)
    (h : Positioned accepted c.tcb) :
    Positioned accepted (acked pcb finSent c).tcb :=
  (h.ackArrived pcb finSent hcfg hqueue).keep (sameQueue_updateSndWnd pcb _)

/-- An acknowledgement takes as many numbers out of flight as bytes out of the queue. -/
theorem acked_flight
    {cfg : TcpConfig} {c : Tsm}
    (pcb : Pcb) (finSent : Bool)
    (hcfg : ConfigOk cfg)
    (hqueue : QueueOk cfg.sockopt.tcpoWinSize.toNat c.tcb.retrans) :
    flight (acked pcb finSent c).tcb + (queued c.tcb).length =
      flight c.tcb + (queued (acked pcb finSent c).tcb).length := by
  have harrived : flight (ackArrived pcb finSent c).tcb + (queued c.tcb).length =
      flight c.tcb + (queued (ackArrived pcb finSent c).tcb).length := by
    rcases ackArrived_spec pcb finSent hcfg hqueue with heq | ⟨segAck, hacc⟩
    · rw [heq]
    · have hflight := hacc.flight_eq
      have hwithin := hacc.clean.within
      rw [hacc.clean.cleaned.bytes, List.length_drop]
      omega
  rw [TransitionPaths.acked, onTcb_tcb]
  unfold updateSndWnd
  split <;> exact harrived

theorem sameQueue_schedule
    (cfg : TcpConfig) (tcb : Tcb) :
    SameQueue tcb (tsmScheduleRetransmission cfg tcb) := by
  rw [tsmScheduleRetransmission_eq]
  exact ⟨rfl, rfl, rfl⟩

theorem sameQueue_slowSet
    (cfg : TcpConfig) (timeout : U32) (tcb : Tcb) :
    SameQueue tcb (tcpTimerSlowSet cfg timeout tcb) := by
  rw [tcpTimerSlowSet_eq]
  exact ⟨rfl, rfl, rfl⟩

/-- Entering a state, or sending a FIN, does not touch the queue. -/
theorem sameQueue_enterFinWaitI
    (cfg : TcpConfig) (c : Tsm) :
    SameQueue c.tcb (enterFinWaitI cfg c).tcb := by
  have hfin : SameQueue c.tcb (sendFin (setState .finWaitI c)).tcb := ⟨rfl, rfl, rfl⟩
  exact hfin.trans ((sameQueue_schedule cfg _).trans (sameQueue_slowSet cfg _ _))

theorem sameQueue_enterCloseWait
    (cfg : TcpConfig) (c : Tsm) :
    SameQueue c.tcb (enterCloseWait cfg c).tcb := by
  have hfin : SameQueue c.tcb (setState .lastAck (sendFin (setState .closeWait c))).tcb :=
    ⟨rfl, rfl, rfl⟩
  exact hfin.trans (sameQueue_schedule cfg _)

theorem sameQueue_retrans
    {env : TsmEnv} {c : Tsm} {winSize : Nat}
    (hmtu : 0 < env.cfg.mtu)
    (hqueue : QueueOk winSize c.tcb.retrans)
    (hwin : winSize < 2 ^ 32) :
    SameQueue c.tcb (tsmRetransData env c).tcb := by
  obtain ⟨heq, -⟩ := tcpDataRetrans_spec env hmtu hqueue hwin
  rw [tsmRetransData, notifyWinUnavail_tcb, heq]
  exact ⟨rfl, rfl, rfl⟩

/-- A send appends the bytes that it takes. -/
theorem Positioned.send
    {env : TsmEnv} {c : Tsm} {data : TsmDataArg}
    (hmtu : 0 < env.cfg.mtu)
    (hqueue : QueueOk env.cfg.sockopt.tcpoWinSize.toNat c.tcb.retrans)
    (hdata : SendChainOk c.tcb data.tdaMbuf)
    (h : Positioned accepted c.tcb) :
    Positioned
      (accepted ++ (chainBytes data.tdaMbuf).take (tsmSendData env c data).dataSent.toNat)
      (tsmSendData env c data).tcb := by
  have hsent : (tsmSendData env c data).dataSent = (tcpDataSend env c data).dataSent := by
    unfold tsmSendData notifyWinUnavail
    split <;> rfl
  rw [hsent, tsmSendData, notifyWinUnavail_tcb, onTcb_tcb]
  refine Positioned.keep ?_ (sameQueue_schedule env.cfg _)
  rcases tcpDataSend_spec hmtu hqueue hdata with heq | ⟨tcb', ns, hds⟩
  · have hzero : ((({ c with dataSent := 0 } : Tsm).fail .enomem).dataSent).toNat = 0 := rfl
    rw [heq, hzero, List.take_zero, List.append_nil]
    exact h
  · obtain ⟨d, hd, hbytes, huna⟩ := h
    have hothers := hds.stored.others
    have htake : (BitVec.ofNat 32 (chainBytes data.tdaMbuf).length).toNat =
        (chainBytes data.tdaMbuf).length := by
      rw [BitVec.toNat_ofNat, Nat.mod_eq_of_lt hdata.size]
    rw [hds.result]
    simp only [htake, List.take_length]
    refine ⟨d, by rw [List.length_append]; omega, ?_, ?_⟩
    · change queued tcb' = _
      rw [hds.stored.bytes, hbytes, List.drop_append_of_le_length hd]
    · change tcb'.snd.una = seqAt (tcb'.snd.iss + 1) d
      rw [hothers]
      exact huna

end Positions

section Steps

/-- The steps that do not reach one of the defects. -/
structure KeepsSequence (cfg : TcpConfig) (tcb : Tcb) (i : ConnInput) : Prop where
  /-- `TS_SYN_RECV` goes on with an ACK of our SYN only -/
  synUnacked :
    ∀ pcb, tcb.state = .synRecv → i.event = .segment pcb → ReachesAck tcb pcb →
      pcb.recvAck ≠ tcb.snd.una
  /-- the application does not close before the handshake is complete -/
  closeEarly : tcb.state = .synRecv → i.event ≠ .close
  /-- nor while it is completed -/
  closeMidway :
    ∀ pcb, tcb.state = .synRecv → i.event = .segment pcb → ¬ SynRecvCloses i.answer pcb tcb
  /-- the callback does not close when a FIN is processed after it -/
  closeTwice :
    ∀ pcb, tcb.state = .established → i.event = .segment pcb →
      ¬ ClosesBeforeFin (i.env cfg) pcb (Tsm.start tcb)
  /-- our FIN is not acknowledged while bytes are left to be sent -/
  finFirst :
    ∀ pcb, tcb.state = .finWaitI → i.event = .segment pcb → ReachesAck tcb pcb →
      pcb.recvAck = tcb.snd.nxt → tcb.snd.una ≠ tcb.snd.nxt →
        (queued tcb).length < flight tcb

theorem KeepsSequence.fits
    {cfg : TcpConfig} {tcb : Tcb} {i : ConnInput}
    (h : KeepsSequence cfg tcb i) :
    SlackFits cfg finOnly tcb i := by
  refine ⟨by decide, by decide, by decide, ?_, ?_, ?_, ?_⟩
  · exact fun hs hclose => absurd hclose (h.closeEarly hs)
  · exact fun pcb hs hevent hcloses => absurd hcloses (h.closeMidway pcb hs hevent)
  · exact fun pcb hs hevent hreach hack => absurd hack (h.synUnacked pcb hs hevent hreach)
  · exact fun pcb hs hevent hcloses => absurd hcloses (h.closeTwice pcb hs hevent)

/-- The states after our FIN. -/
def AfterFin (s : TcpState) : Prop :=
  s = .finWaitI ∨ s = .finWaitII ∨ s = .lastAck ∨ s = .closing ∨ s = .timeWait

instance (s : TcpState) : Decidable (AfterFin s) :=
  inferInstanceAs (Decidable (_ ∨ _))

/-- After our FIN its number may be the one that `SND.UNA` has moved over. -/
def Drained (accepted : List UInt8) (tcb : Tcb) : Prop :=
  Positioned accepted tcb ∨ (tcb.snd.una = tcb.snd.nxt ∧ queued tcb = [])

/-- The bytes and their numbers, by state. -/
structure Sequenced (accepted : List UInt8) (tcb : Tcb) : Prop where
  opening :
    tcb.state = .listen ∨ tcb.state = .synSent ∨ tcb.state = .synRecv →
      accepted = [] ∧ queued tcb = []
  estab : tcb.state = .established → Positioned accepted tcb
  closing : AfterFin tcb.state → Drained accepted tcb

/-- The same, for the control blocks that are in use. -/
def Numbered (accepted : List UInt8) (tcb : Tcb) : Prop :=
  tcb.inHtable = true → Sequenced accepted tcb

variable {cfg : TcpConfig} {accepted : List UInt8}

theorem numbered_closed
    (accepted : List UInt8) (c : Tsm) :
    Numbered accepted (tcpSilentClose c).tcb := by
  intro hlive
  rw [(tcpSilentClose_dead c).1] at hlive
  cases hlive

theorem numbered_estab
    {tcb : Tcb}
    (hstate : tcb.state = .established)
    (h : Positioned accepted tcb) :
    Numbered accepted tcb := by
  refine fun _ => ⟨?_, fun _ => h, ?_⟩
  · rw [hstate]
    simp
  · rw [hstate]
    simp [AfterFin]

theorem numbered_afterFin
    {tcb : Tcb} {s : TcpState}
    (hstate : tcb.state = s)
    (hafter : AfterFin s)
    (h : Drained accepted tcb) :
    Numbered accepted tcb := by
  refine fun _ => ⟨?_, ?_, fun _ => h⟩
  · rw [hstate]
    rcases hafter with rfl | rfl | rfl | rfl | rfl <;> simp
  · rw [hstate]
    rcases hafter with rfl | rfl | rfl | rfl | rfl <;> simp

theorem Drained.same
    {t t' : Tcb}
    (h : Drained accepted t)
    (hsame : SameSend t t') :
    Drained accepted t' := by
  rcases h with h | ⟨hnxt, hempty⟩
  · exact Or.inl (h.keep (.of_same hsame))
  · right
    rw [hsame.snd, queued, hsame.retrans]
    exact ⟨hnxt, hempty⟩

theorem Numbered.same
    {t t' : Tcb}
    (h : Numbered accepted t)
    (hsame : SameSend t t') :
    Numbered accepted t' := by
  intro hlive
  have hseq := h (hsame.inHtable.symm.trans hlive)
  refine ⟨?_, ?_, ?_⟩
  · rw [hsame.state, queued, hsame.retrans]
    exact hseq.opening
  · rw [hsame.state]
    exact fun hs => (hseq.estab hs).keep (.of_same hsame)
  · rw [hsame.state]
    exact fun hs => (hseq.closing hs).same hsame

/-- Nothing is left to be acknowledged when `SND.UNA` has reached `SND.NXT`. -/
theorem ackArrived_idle
    {c : Tsm}
    (pcb : Pcb) (finSent : Bool)
    (hcfg : ConfigOk cfg)
    (hqueue : QueueOk cfg.sockopt.tcpoWinSize.toNat c.tcb.retrans)
    (hidle : c.tcb.snd.una = c.tcb.snd.nxt) :
    ackArrived pcb finSent c = c := by
  rcases ackArrived_spec pcb finSent hcfg hqueue with heq | ⟨segAck, hacc⟩
  · exact heq
  · have hin := hacc.inFlight
    have hpos := hacc.clean.pos
    rw [flight_eq_zero.2 hidle] at hin
    omega

theorem Drained.ackArrived
    {c : Tsm}
    (pcb : Pcb) (finSent : Bool)
    (hcfg : ConfigOk cfg)
    (hqueue : QueueOk cfg.sockopt.tcpoWinSize.toNat c.tcb.retrans)
    (h : Drained accepted c.tcb) :
    Drained accepted (ackArrived pcb finSent c).tcb := by
  rcases h with h | ⟨hnxt, hempty⟩
  · exact Or.inl (h.ackArrived pcb finSent hcfg hqueue)
  · rw [ackArrived_idle pcb finSent hcfg hqueue hnxt]
    exact Or.inr ⟨hnxt, hempty⟩

theorem Drained.acked
    {c : Tsm}
    (pcb : Pcb) (finSent : Bool)
    (hcfg : ConfigOk cfg)
    (hqueue : QueueOk cfg.sockopt.tcpoWinSize.toNat c.tcb.retrans)
    (h : Drained accepted c.tcb) :
    Drained accepted (acked pcb finSent c).tcb := by
  have harrived := h.ackArrived pcb finSent hcfg hqueue
  rw [TransitionPaths.acked, onTcb_tcb]
  unfold updateSndWnd
  split
  · exact harrived
  · exact harrived

theorem Drained.enterClosing
    {c : Tsm}
    (h : Drained accepted c.tcb) :
    Drained accepted (enterClosing cfg (c.onTcb tcpTimerSlowCancel)).tcb := by
  rw [TcpStateMachine.enterClosing, onTcb_tcb, tsmScheduleRetransmission_eq]
  exact h

theorem Drained.enterFinWaitII
    {c : Tsm}
    (h : Drained accepted c.tcb) :
    Drained accepted (enterFinWaitII cfg (c.onTcb tcpTimerSlowCancel)).tcb := by
  rw [TcpStateMachine.enterFinWaitII, onTcb_tcb, tcpTimerSlowSet_eq]
  exact h

/-- The connection waits in `TS_TIME_WAIT`, or skips it. -/
theorem Drained.enterTimeWait
    {c : Tsm}
    (h : Drained accepted c.tcb) :
    Numbered accepted (enterTimeWait cfg c).tcb := by
  unfold TcpStateMachine.enterTimeWait
  simp only
  split
  · exact numbered_closed _ _
  · rw [onTcb_tcb, tcpTimerSlowSet_eq]
    exact numbered_afterFin (s := .timeWait) rfl (by decide) h

theorem synSent_numbered
    {pcb : Pcb} {c : Tsm}
    (env : TsmEnv)
    (hinv : SendInv env.cfg finOnly c.tcb)
    (hseq : Numbered accepted c.tcb)
    (hlive : c.tcb.inHtable = true)
    (hstate : c.tcb.state = .synSent) :
    Numbered accepted (synSentSegment env pcb c).tcb := by
  obtain ⟨huna, hnxt, hempty⟩ := hinv.handshake hlive (Or.inl hstate)
  have hnone := ((hseq hlive).opening (Or.inr (Or.inl hstate))).1
  refine synSentSegment_elim (P := fun c' => Numbered accepted c'.tcb) huna hnxt
    (fun c' hq => hseq.same hq.same) (fun c' _ => numbered_closed _ _) ?_ ?_
  · -- both sides have sent a SYN
    rintro - c' hq
    rw [enterSynRecv, onTcb_tcb, tsmScheduleRetransmission_eq]
    refine fun _ => ⟨fun _ => ⟨hnone, ?_⟩, ?_, ?_⟩
    · change queued c'.tcb = []
      rw [queued, hq.same.retrans]
      exact hempty
    · simp [setState]
    · simp [AfterFin, setState]
  · intro c' hq c₁ hdone c₂ hq₂
    refine Numbered.same ?_ hq₂.same
    rcases hdone.of_synSent (hq.same.state.trans hstate) with hkept | ⟨-, c₀, -, hafter⟩
    · have hacked : Positioned accepted (synAcked pcb c').tcb := by
        refine ⟨0, Nat.zero_le _, ?_, ?_⟩
        · change queued c'.tcb = _
          rw [queued, hq.same.retrans, hnone]
          exact hempty
        · change c'.tcb.snd.una + 1 = seqAt (c'.tcb.snd.iss + 1) 0
          rw [hq.same.snd, huna, seqAt_zero]
      exact numbered_estab rfl ((hacked.keep (.of_same hkept.same)).keep ⟨rfl, rfl, rfl⟩)
    · -- the callback closed a connection that was not established yet
      intro hlive₂
      have hdead := (tcpSilentClose_dead ((setState .closed
        (c₀.tcpNotif .sessClosing)).tcpNotif .sessClosed)).1
      exact absurd (hlive₂.symm.trans (hafter.same.inHtable.trans hdead)) (by decide)

theorem synRecv_numbered
    {pcb : Pcb} {c : Tsm} {i : ConnInput}
    (env : TsmEnv)
    (hinv : SendInv env.cfg finOnly c.tcb)
    (hseq : Numbered accepted c.tcb)
    (hlive : c.tcb.inHtable = true)
    (hstate : c.tcb.state = .synRecv)
    (hanswer : env.answer = i.answer)
    (hevent : i.event = .segment pcb)
    (hkeeps : KeepsSequence env.cfg c.tcb i) :
    Numbered accepted (synRecvSegment env pcb c).tcb := by
  obtain ⟨huna, hnxt, hempty⟩ := hinv.handshake hlive (Or.inr hstate)
  have hnone := ((hseq hlive).opening (Or.inr (Or.inr hstate))).1
  refine synRecvSegment_elim (P := fun c' => Numbered accepted c'.tcb) huna hnxt
    (fun c' hq => hseq.same hq.same) (fun c' _ => numbered_closed _ _) ?_
  intro hreach c₀ hc₀ c' hdone
  have hcloses : ¬ SynRecvCloses env.answer pcb c.tcb := by
    rw [hanswer]
    exact hkeeps.closeMidway pcb hstate hevent
  have hc₀' := hc₀
  obtain rfl : c₀ = incUna c := by
    rcases hc₀ with ⟨hold, -⟩ | ⟨-, hnew⟩
    · exact absurd hold (hkeeps.synUnacked pcb hstate hevent hreach)
    · exact hnew
  have hacked : Positioned accepted ((incUna c).onTcb (setSndWnd pcb)).tcb := by
    refine ⟨0, Nat.zero_le _, ?_, ?_⟩
    · change queued c.tcb = _
      rw [hempty, hnone]
      rfl
    · change c.tcb.snd.una + 1 = seqAt (c.tcb.snd.iss + 1) 0
      rw [huna, seqAt_zero]
  have hkept : Quiet ((incUna c).onTcb (setSndWnd pcb)) c' := by
    rcases hdone.of_open (Or.inr hstate) with hkept | ⟨hasks, -⟩
    · exact hkept
    · exact absurd (synRecvCloses_of huna hnxt hreach hc₀' hasks) hcloses
  have hat := hacked.keep (.of_same hkept.same)
  refine ⟨fun _ => numbered_estab rfl (hat.keep ⟨rfl, rfl, rfl⟩), fun _ => ?_⟩
  exact numbered_afterFin (enterCloseWait_state env.cfg _) (by decide)
    (Or.inl (hat.keep (sameQueue_enterCloseWait env.cfg (c'.tcpNotif .sessClosing))))

theorem estab_numbered
    {pcb : Pcb} {c : Tsm}
    (env : TsmEnv)
    (hcfg : ConfigOk env.cfg)
    (hinv : SendInv env.cfg finOnly c.tcb)
    (hseq : Numbered accepted c.tcb)
    (hlive : c.tcb.inHtable = true)
    (hstate : c.tcb.state = .established) :
    Numbered accepted (estabSegment env pcb c).tcb := by
  have hat := hinv.at hlive
  rw [hstate] at hat
  have hpos := (hseq hlive).estab hstate
  have hacked := hpos.acked pcb false hcfg hat.bound.queue
  have hstate' := (hat.acked pcb false hcfg).state
  have hwait : ∀ c₁ : Tsm, Positioned accepted c₁.tcb →
      Drained accepted (enterFinWaitI env.cfg (c₁.tcpNotif .sessClosing)).tcb := by
    intro c₁ h
    exact Or.inl (h.keep (sameQueue_enterFinWaitI env.cfg (c₁.tcpNotif .sessClosing)))
  refine estabSegment_elim (P := fun c' => Numbered accepted c'.tcb)
    (fun c' hq => hseq.same hq.same) (fun c' _ => numbered_closed _ _) ?_ ?_ ?_
  · rintro -
    exact numbered_estab (hat.ackArrived pcb false hcfg).state
      (hpos.ackArrived pcb false hcfg hat.bound.queue)
  · rintro - c' hdone
    rcases hdone.of_open (Or.inl hstate') with hkept | ⟨-, c₁, hbefore, hafter⟩
    · exact numbered_estab (hkept.same.state.trans hstate')
        (hacked.keep (.of_same hkept.same))
    · exact numbered_afterFin (hafter.same.state.trans (enterFinWaitI_state env.cfg _))
        (by decide) ((hwait c₁ (hacked.keep (.of_same hbefore.same))).same hafter.same)
  · rintro - - c' hdone
    have hpos' : Positioned accepted c'.tcb := by
      rcases hdone.of_open (Or.inl hstate') with hkept | ⟨-, c₁, hbefore, hafter⟩
      · exact hacked.keep (.of_same hkept.same)
      · exact ((hacked.keep (.of_same hbefore.same)).keep
          (sameQueue_enterFinWaitI env.cfg (c₁.tcpNotif .sessClosing))).keep
            (.of_same hafter.same)
    exact numbered_afterFin (enterCloseWait_state env.cfg _) (by decide)
      (Or.inl (hpos'.keep (sameQueue_enterCloseWait env.cfg (c'.tcpNotif .sessClosing))))

theorem finWaitI_numbered
    {pcb : Pcb} {c : Tsm} {i : ConnInput}
    (env : TsmEnv)
    (hcfg : ConfigOk env.cfg)
    (hinv : SendInv env.cfg finOnly c.tcb)
    (hseq : Numbered accepted c.tcb)
    (hlive : c.tcb.inHtable = true)
    (hstate : c.tcb.state = .finWaitI)
    (hevent : i.event = .segment pcb)
    (hkeeps : KeepsSequence env.cfg c.tcb i) :
    Numbered accepted (finWaitISegment env pcb c).tcb := by
  have hat := hinv.at hlive
  rw [hstate] at hat
  have hdrained := (hseq hlive).closing (by simp [AfterFin, hstate])
  have hacked := hdrained.acked pcb true hcfg hat.bound.queue
  have hstate' := (hat.acked pcb true hcfg).state
  -- the ACK of our FIN finds the queue empty
  have hours : ReachesAck c.tcb pcb → ourFinAcked pcb (acked pcb true c).tcb = true →
      Drained accepted (incUna (acked pcb true c)).tcb := by
    intro hreach hours
    obtain ⟨hone, hne⟩ := ourFinAcked_flight hours
    have hcount := acked_flight pcb true hcfg hat.bound.queue
    obtain ⟨huna', hnxt', -⟩ := acked_fields pcb true c
    have hnxt := hnxt'.trans (ackArrived_nxt pcb true c)
    simp only [ourFinAcked, Bool.and_eq_true, decide_eq_true_eq] at hours
    have hbusy : c.tcb.snd.una ≠ c.tcb.snd.nxt := by
      intro hidle
      rw [huna', hnxt, ackArrived_idle pcb true hcfg hat.bound.queue hidle] at hne
      exact hne hidle
    have hfirst := hkeeps.finFirst pcb hstate hevent hreach (hours.2.trans hnxt) hbusy
    right
    refine ⟨?_, List.length_eq_zero_iff.1 ?_⟩
    · change (acked pcb true c).tcb.snd.una + 1 = (acked pcb true c).tcb.snd.nxt
      rw [hours.1]
      abel
    · change (queued (acked pcb true c).tcb).length = 0
      omega
  refine finWaitISegment_elim (P := fun c' => Numbered accepted c'.tcb) hstate'
    (fun c' hq => hseq.same hq.same) (fun c' _ => numbered_closed _ _) ?_ ?_ ?_ ?_ ?_ ?_
  · rintro -
    exact numbered_afterFin (hat.ackArrived pcb true hcfg).state (by decide)
      (hdrained.ackArrived pcb true hcfg hat.bound.queue)
  · rintro - - c' hq
    exact numbered_afterFin (hq.same.state.trans hstate') (by decide) (hacked.same hq.same)
  · rintro - - - c' hq
    exact numbered_afterFin (enterClosing_state env.cfg _) (by decide)
      (hacked.same hq.same).enterClosing
  · rintro hreach hyes - c' hq
    exact numbered_afterFin (hq.same.state.trans hstate') (by decide)
      ((hours hreach hyes).same hq.same)
  · rintro hreach hyes c' hq
    exact numbered_afterFin (enterFinWaitII_state env.cfg _) (by decide)
      ((hours hreach hyes).same hq.same).enterFinWaitII
  · rintro hreach hyes c' hq
    exact ((hours hreach hyes).same hq.same).enterTimeWait

theorem finWaitII_numbered
    {pcb : Pcb} {c : Tsm}
    (env : TsmEnv)
    (hcfg : ConfigOk env.cfg)
    (hinv : SendInv env.cfg finOnly c.tcb)
    (hseq : Numbered accepted c.tcb)
    (hlive : c.tcb.inHtable = true)
    (hstate : c.tcb.state = .finWaitII) :
    Numbered accepted (finWaitIISegment env pcb c).tcb := by
  have hat := hinv.at hlive
  rw [hstate] at hat
  have hdrained := (hseq hlive).closing (by simp [AfterFin, hstate])
  have hacked := hdrained.acked pcb false hcfg hat.bound.queue
  have hstate' := (hat.acked pcb false hcfg).state
  refine finWaitIISegment_elim (P := fun c' => Numbered accepted c'.tcb) hstate'
    (fun c' hq => hseq.same hq.same) (fun c' _ => numbered_closed _ _) ?_ ?_ ?_
  · rintro -
    exact numbered_afterFin (hat.ackArrived pcb false hcfg).state (by decide)
      (hdrained.ackArrived pcb false hcfg hat.bound.queue)
  · rintro - c' hq
    exact numbered_afterFin (hq.same.state.trans hstate') (by decide) (hacked.same hq.same)
  · rintro - c' hq c'' hq'
    have hquiet : Drained accepted c'.tcb := hacked.same hq.same
    have hcancel : Drained accepted (c'.onTcb tcpTimerSlowCancel).tcb := hquiet
    exact (hcancel.same hq'.same).enterTimeWait

theorem closing_numbered
    {pcb : Pcb} {c : Tsm}
    (env : TsmEnv)
    (hcfg : ConfigOk env.cfg)
    (hinv : SendInv env.cfg finOnly c.tcb)
    (hseq : Numbered accepted c.tcb)
    (hlive : c.tcb.inHtable = true)
    (hstate : c.tcb.state = .closing) :
    Numbered accepted (closingSegment env pcb c).tcb := by
  have hat := hinv.at hlive
  rw [hstate] at hat
  have hdrained := (hseq hlive).closing (by simp [AfterFin, hstate])
  have hacked := hdrained.acked pcb true hcfg hat.bound.queue
  refine closingSegment_elim (P := fun c' => Numbered accepted c'.tcb)
    (fun c' hq => hseq.same hq.same) (fun c' _ => numbered_closed _ _) ?_ ?_ ?_
  · rintro -
    exact numbered_afterFin (hat.ackArrived pcb true hcfg).state (by decide)
      (hdrained.ackArrived pcb true hcfg hat.bound.queue)
  · rintro - -
    exact numbered_afterFin (hat.acked pcb true hcfg).state (by decide) hacked
  · rintro - -
    have hcancel : Drained accepted ((acked pcb true c).onTcb tcpTimerRtoCancel).tcb := hacked
    exact hcancel.enterTimeWait

theorem timeWait_numbered
    {pcb : Pcb} {c : Tsm}
    (env : TsmEnv)
    (hseq : Numbered accepted c.tcb)
    (hlive : c.tcb.inHtable = true)
    (hstate : c.tcb.state = .timeWait) :
    Numbered accepted (timeWaitSegment env pcb c).tcb := by
  have hdrained := (hseq hlive).closing (by simp [AfterFin, hstate])
  refine timeWaitSegment_elim (P := fun c' => Numbered accepted c'.tcb)
    (fun c' hq => hseq.same hq.same) (fun c' _ => numbered_closed _ _) ?_
  intro c' hq
  have hsame := hdrained.same hq.same
  rw [onTcb_tcb, Function.comp_apply, tcpTimerSlowSet_eq]
  exact numbered_afterFin (s := .timeWait) (hq.same.state.trans hstate) (by decide) hsame

theorem tsmSend_numbered
    {c : Tsm} {data : TsmDataArg}
    (env : TsmEnv)
    (hcfg : ConfigOk env.cfg)
    (hinv : SendInv env.cfg finOnly c.tcb)
    (hseq : Numbered accepted c.tcb)
    (hlive : c.tcb.inHtable = true)
    (hdata : SendChainOk c.tcb data.tdaMbuf)
    (hnone : c.dataSent = 0) :
    Numbered (accepted ++ (chainBytes data.tdaMbuf).take (tsmSend env c data).dataSent.toNat)
      (tsmSend env c data).tcb := by
  have hqueue := (hinv.bound hlive).queue
  have hrefused : Numbered
      (accepted ++ (chainBytes data.tdaMbuf).take (c.fail .enotconn).dataSent.toNat)
      (c.fail .enotconn).tcb := by
    have hzero : (c.fail .enotconn).dataSent.toNat = 0 := by
      change c.dataSent.toNat = 0
      rw [hnone]
      rfl
    rw [hzero, List.take_zero, List.append_nil]
    exact hseq
  cases hstate : c.tcb.state with
  | established =>
      have hrun : tsmSend env c data = tsmSendData env c data := by
        simp only [tsmSend, hstate]
      obtain ⟨hs, -⟩ := tcpDataSend_state hcfg.mtu hqueue hdata
      have hestab : (tsmSendData env c data).tcb.state = .established := by
        rw [tsmSendData, notifyWinUnavail_tcb, onTcb_tcb, tsmScheduleRetransmission_eq]
        exact hs.trans hstate
      rw [hrun]
      exact numbered_estab hestab
        (((hseq hlive).estab hstate).send hcfg.mtu hqueue hdata)
  | closeWait =>
      exact absurd hstate (hinv.resting hlive).2.1
  | init | listen | synSent | synRecv | finWaitI | finWaitII | lastAck | closing | timeWait
  | closed =>
      simpa only [tsmSend, hstate] using hrefused

theorem tsmClose_numbered
    {c : Tsm}
    (hinv : SendInv cfg finOnly c.tcb)
    (hseq : Numbered accepted c.tcb)
    (hlive : c.tcb.inHtable = true)
    (hearly : c.tcb.state ≠ .synRecv) :
    Numbered accepted (tsmClose cfg c).tcb := by
  have hrefused : Numbered accepted (c.fail .enotconn).tcb := hseq
  cases hstate : c.tcb.state with
  | init =>
      exact absurd hstate (hinv.resting hlive).1
  | closeWait =>
      exact absurd hstate (hinv.resting hlive).2.1
  | synRecv =>
      exact absurd hstate hearly
  | listen | synSent =>
      simp only [tsmClose, hstate]
      exact numbered_closed _ _
  | established =>
      simp only [tsmClose, hstate]
      exact numbered_afterFin (enterFinWaitI_state cfg _) (by decide)
        (Or.inl (((hseq hlive).estab hstate).keep
          (sameQueue_enterFinWaitI cfg (c.tcpNotif .sessClosing))))
  | finWaitI | finWaitII | lastAck | closing | timeWait | closed =>
      simpa only [tsmClose, hstate] using hrefused

/-- The timers of a live control block are not part of the invariant. -/
theorem Numbered.of_eq
    {t t' : Tcb}
    (h : Numbered accepted t)
    (hhtable : t'.inHtable = t.inHtable)
    (hstate : t'.state = t.state)
    (hsnd : t'.snd = t.snd)
    (hretrans : t'.retrans = t.retrans) :
    Numbered accepted t' := by
  intro hlive
  have hseq := h (hhtable.symm.trans hlive)
  have hsame : SameQueue t t' := ⟨by rw [hsnd], by rw [hsnd], hretrans⟩
  refine ⟨?_, ?_, ?_⟩
  · rw [hstate, queued, hretrans]
    exact hseq.opening
  · rw [hstate]
    exact fun hs => (hseq.estab hs).keep hsame
  · rw [hstate]
    intro hs
    rcases hseq.closing hs with hpos | ⟨hnxt, hempty⟩
    · exact Or.inl (hpos.keep hsame)
    · right
      rw [hsnd, queued, hretrans]
      exact ⟨hnxt, hempty⟩

theorem retransOrClose_numbered
    {env : TsmEnv} {c : Tsm} {limit : BitVec 8} {giveUp resend : Tsm → Tsm}
    (hgive : Numbered accepted (giveUp c).tcb)
    (hresend : Numbered accepted (resend c).tcb) :
    Numbered accepted (retransOrClose env limit giveUp resend c).tcb := by
  unfold retransOrClose
  split
  · exact hgive
  · rw [onTcb_tcb, tsmScheduleRetransmission_eq]
    exact hresend.of_eq rfl rfl rfl rfl

theorem tcpHandleRetransTo_numbered
    {c : Tsm}
    (env : TsmEnv)
    (hcfg : ConfigOk env.cfg)
    (hinv : SendInv env.cfg finOnly c.tcb)
    (hseq : Numbered accepted c.tcb)
    (hlive : c.tcb.inHtable = true) :
    Numbered accepted (tcpHandleRetransTo env c).tcb := by
  have hw := hcfg.winSize
  have hfired : Numbered accepted
      (c.onTcb fun tcb => { tcb with onRtoList := false, retransCnt := tcb.retransCnt + 1 }).tcb :=
    hseq.of_eq rfl rfl rfl rfl
  unfold tcpHandleRetransTo tsmRetransmissionTimeout
  cases hstate : c.tcb.state with
  | synSent | synRecv | finWaitI | lastAck | closing =>
      simp only [onTcb_tcb, hstate]
      exact retransOrClose_numbered (numbered_closed _ _) hfired
  | established =>
      simp only [onTcb_tcb, hstate]
      have hqueue := (hinv.bound hlive).queue
      have hat := hinv.at hlive
      rw [hstate] at hat
      have hat' : At env.cfg .established finOnly.estab
          (c.onTcb fun tcb =>
            { tcb with onRtoList := false, retransCnt := tcb.retransCnt + 1 }).tcb :=
        ⟨hat.live, hat.state, hat.bound.of_eq rfl rfl rfl⟩
      have hpos := (hfired hlive).estab hstate
      exact retransOrClose_numbered (numbered_closed _ _)
        (numbered_estab (tsmRetransData_at hcfg hat').state
          (hpos.keep (sameQueue_retrans hcfg.mtu hat'.bound.queue (by omega))))
  | closeWait =>
      exact absurd hstate (hinv.resting hlive).2.1
  | init | listen | finWaitII | timeWait | closed =>
      simpa only [onTcb_tcb, hstate] using hfired

theorem tcpHandleSlowTo_numbered
    {c : Tsm}
    (env : TsmEnv)
    (hseq : Numbered accepted c.tcb) :
    Numbered accepted (tcpHandleSlowTo env c).tcb := by
  have hfired : Numbered accepted
      (c.onTcb fun tcb => { tcb with onSlowList := false }).tcb :=
    hseq.of_eq rfl rfl rfl rfl
  have hclose : ∀ s, Numbered accepted
      (closeIn s (c.onTcb fun tcb => { tcb with onSlowList := false })).tcb := by
    intro s
    unfold closeIn
    split
    · exact numbered_closed _ _
    · exact hfired
  unfold tcpHandleSlowTo
  simp only
  split
  · exact hclose _
  · exact hclose _
  · exact hclose _
  all_goals exact hfired

theorem synInFlight_numbered
    {s : TcpState} {tcb : Tcb}
    (h : SynInFlight s tcb)
    (hs : s = .synSent ∨ s = .synRecv) :
    Numbered [] (tsmScheduleRetransmission cfg tcb) := by
  rw [tsmScheduleRetransmission_eq]
  refine fun _ => ⟨fun _ => ⟨rfl, ?_⟩, ?_, ?_⟩
  · simp only [queued, h.retrans, chainBytes_nil]
  · simp only [h.state]
    rcases hs with rfl | rfl <;> simp
  · simp only [h.state]
    rcases hs with rfl | rfl <;> simp [AfterFin]

theorem opened_numbered
    (env : TsmEnv) (active : Bool) (c : Tsm) :
    Numbered [] (tcpOpenV4Connection env active c).tcb := by
  cases active with
  | true =>
      obtain ⟨tcb, heq, hsyn⟩ := openedActive_eq env c
      rw [heq]
      exact synInFlight_numbered hsyn (Or.inl rfl)
  | false =>
      have hstate : (tcpOpenV4Connection env false c).tcb.state = .listen := rfl
      refine fun _ => ⟨fun _ => ⟨rfl, rfl⟩, ?_, ?_⟩
      · rw [hstate]
        simp
      · rw [hstate]
        simp [AfterFin]

/-- The invariant: the bounds of the queue, and the numbers of its bytes. -/
structure SeqInv (cfg : TcpConfig) (h : History) : Prop where
  send : SendInv cfg finOnly h.tcb
  seq : Numbered h.accepted h.tcb

theorem seqInv_blank :
    SeqInv cfg .blank :=
  ⟨blankTcb_sendInv, fun hlive => by cases hlive⟩

/-- Where the history is not started again, it is what it was and the bytes that were taken. -/
theorem numbered_historyStep
    {h : History} {i : ConnInput}
    (hnew : opens i.event = true → Numbered [] (connStep cfg h.tcb i).tcb)
    (hold :
      opens i.event = false →
        Numbered (h.accepted ++ takenBytes i.event (connStep cfg h.tcb i))
          (connStep cfg h.tcb i).tcb) :
    Numbered (historyStep cfg h i).accepted (historyStep cfg h i).tcb := by
  simp only [historyStep]
  split
  · rename_i hopens
    exact hnew hopens
  · rename_i hopens
    exact hold (by simpa using hopens)

theorem sequenced_segment
    {h : History} {i : ConnInput} {pcb : Pcb}
    (hcfg : ConfigOk cfg)
    (hinv : SeqInv cfg h)
    (hlive : h.tcb.inHtable = true)
    (hevent : i.event = .segment pcb)
    (hkeeps : KeepsSequence cfg h.tcb i) :
    Numbered h.accepted (tsmSegmentArrives (i.env cfg) pcb (Tsm.start h.tcb)).tcb := by
  have hsend : SendInv cfg finOnly (Tsm.start h.tcb).tcb := hinv.send
  have hseq : Numbered h.accepted (Tsm.start h.tcb).tcb := hinv.seq
  unfold tsmSegmentArrives
  cases hstate : h.tcb.state with
  | init =>
      exact absurd hstate (hinv.send.resting hlive).1
  | closeWait =>
      exact absurd hstate (hinv.send.resting hlive).2.1
  | closed =>
      exact absurd hstate (hinv.send.resting hlive).2.2
  | listen =>
      simp only [Tsm.start, hstate]
      exact listenSegment_elim (P := fun c' => Numbered h.accepted c'.tcb)
        fun c' hq => hseq.same hq.same
  | synSent =>
      simp only [Tsm.start, hstate]
      exact synSent_numbered (i.env cfg) hsend hseq hlive hstate
  | synRecv =>
      simp only [Tsm.start, hstate]
      exact synRecv_numbered (i := i) (i.env cfg) hsend hseq hlive hstate rfl hevent hkeeps
  | established =>
      simp only [Tsm.start, hstate]
      exact estab_numbered (i.env cfg) hcfg hsend hseq hlive hstate
  | finWaitI =>
      simp only [Tsm.start, hstate]
      exact finWaitI_numbered (i := i) (i.env cfg) hcfg hsend hseq hlive hstate hevent hkeeps
  | finWaitII =>
      simp only [Tsm.start, hstate]
      exact finWaitII_numbered (i.env cfg) hcfg hsend hseq hlive hstate
  | lastAck =>
      simp only [Tsm.start, hstate]
      exact lastAckSegment_elim (P := fun c' => Numbered h.accepted c'.tcb)
        (fun c' hq => hseq.same hq.same) fun c' _ => numbered_closed _ _
  | closing =>
      simp only [Tsm.start, hstate]
      exact closing_numbered (i.env cfg) hcfg hsend hseq hlive hstate
  | timeWait =>
      simp only [Tsm.start, hstate]
      exact timeWait_numbered (i.env cfg) hseq hlive hstate

/-- Every step that does not reach one of the defects keeps bytes and numbers together. -/
theorem sequenced_step
    {h : History} {i : ConnInput}
    (hcfg : ConfigOk cfg)
    (hinv : SeqInv cfg h)
    (hlegal : ConnLegal h.tcb i)
    (hkeeps : KeepsSequence cfg h.tcb i) :
    SeqInv cfg (historyStep cfg h i) := by
  refine ⟨?_, numbered_historyStep ?_ ?_⟩
  · rw [historyStep_tcb]
    exact sendInv_step hcfg hinv.send hlegal hkeeps.fits
  · intro hopens
    unfold connStep
    cases hevent : i.event with
    | «open» active =>
        exact opened_numbered (i.env cfg) active (Tsm.start h.tcb)
    | accept syn =>
        obtain ⟨tcb, heq, hsyn⟩ := accepted_eq (i.env cfg) syn
        simp only
        rw [heq]
        exact synInFlight_numbered hsyn (Or.inr rfl)
    | send data | close | segment pcb | rtoTimer | slowTimer | purge =>
        rw [hevent] at hopens
        cases hopens
  · intro hopens
    unfold connStep
    cases hevent : i.event with
    | «open» active | accept syn =>
        rw [hevent] at hopens
        cases hopens
    | send data =>
        simp only [ConnLegal, hevent] at hlegal
        exact tsmSend_numbered (c := Tsm.start h.tcb) (i.env cfg) hcfg hinv.send hinv.seq
          hlegal.1 hlegal.2 rfl
    | close =>
        simp only [ConnLegal, hevent] at hlegal
        simp only [takenBytes, List.append_nil]
        exact tsmClose_numbered (c := Tsm.start h.tcb) hinv.send hinv.seq hlegal
          fun hs => hkeeps.closeEarly hs hevent
    | rtoTimer =>
        simp only [ConnLegal, hevent] at hlegal
        simp only [takenBytes, List.append_nil]
        exact tcpHandleRetransTo_numbered (c := Tsm.start h.tcb) (i.env cfg) hcfg hinv.send
          hinv.seq (hinv.send.live_of_timer (Or.inl hlegal))
    | slowTimer =>
        simp only [takenBytes, List.append_nil]
        exact tcpHandleSlowTo_numbered (c := Tsm.start h.tcb) (i.env cfg) hinv.seq
    | purge =>
        simp only [takenBytes, List.append_nil]
        exact numbered_closed _ _
    | segment pcb =>
        simp only [ConnLegal, hevent] at hlegal
        simp only [takenBytes, List.append_nil]
        exact sequenced_segment hcfg hinv hlegal hevent hkeeps

end Steps

section Results

variable {cfg : TcpConfig}

theorem plain_never_asksClose
    (event : ConnEvent) :
    NeverAsksClose (ConnInput.plain event).answer := by
  intro i bytes h
  simp [ConnInput.plain] at h

end Results

end SendSequence
end Warp17
