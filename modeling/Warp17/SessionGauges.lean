import Warp17.ControlBlockPool
import Warp17.Tallies

/-!
# The gauges of sessions

`tsms_snd_win_full` and `tsms_missing_seq` are changed at edges: `tsm_send_data()` and
`tsm_retrans_data()` count a window that they fill, `tsm_cleanup_retrans_queu()` discounts one
that it opens, and `tsm_handle_incoming()` counts a receive buffer that it makes non-empty and
discounts one that it empties.  Everything else that changes the window, the numbers in flight
or the receive buffer changes no gauge: taking a window from a segment, counting our SYN or
FIN as acknowledged, sending a FIN, and closing.

`EdgesKept` lists, state by state, what these uncounted changes come to.

Whether a session may be closed with something counted of it is a parameter (`Leave`).

**Results**
- `Tracked`: in the middle of a transition the flag of the receive buffer is right, and that of
  the window is known.
- `Tracked.acked`, `Tracked.unavail`, `Tracked.receiveAndAck`: how the parts of a transition
  that count change them.
-/

namespace Warp17
namespace SessionGauges

open GuardedRuns SequenceComparison MbufChains ControlBlock ReceiveBuffer SendQueue
open RetransmissionQueue TcpStateMachine TransitionPaths ConnectionRuns SendInvariants StateTraces
open ControlBlockPool Tallies

universe u

section Flags

/-- How far a control block is counted: its full send window, and its out-of-order data. -/
structure Flags where
  winFull : Bool
  missing : Bool
deriving DecidableEq, Repr

/-- What a session that is alive counts for. -/
def flagsOf (tcb : Tcb) : Flags :=
  { winFull := tcpSndWinFull tcb
    missing := !tcb.rcvBuf.isEmpty }

/-- An edge of a gauge; `none` when it is counted or discounted twice. -/
def flagStep (f : Flags) : TcpOutput → Option Flags
  | .notif .sessWinUnavail => if f.winFull then none else some { f with winFull := true }
  | .notif .sessWinAvail => if f.winFull then some { f with winFull := false } else none
  | .missingSeq true => if f.missing then none else some { f with missing := true }
  | .missingSeq false => if f.missing then some { f with missing := false } else none
  | .notif _ | .pkt _ | .deliver _ | .enter _ | .asserted => some f

/-- The edges of a transition. -/
def flagSteps (f : Flags) (out : List TcpOutput) : Option Flags :=
  out.foldlM flagStep f

/-- An effect that changes no gauge. -/
def NoEdge (o : TcpOutput) : Prop :=
  ∀ f, flagStep f o = some f

theorem flagSteps_append
    (f : Flags) (out out' : List TcpOutput) :
    flagSteps f (out ++ out') = (flagSteps f out).bind fun f' => flagSteps f' out' := by
  simp [flagSteps, List.foldlM_append, Option.bind_eq_bind]

theorem flagSteps_noEdge
    {out : List TcpOutput}
    (h : ∀ o ∈ out, NoEdge o) (f : Flags) :
    flagSteps f out = some f := by
  induction out with
  | nil =>
      rfl
  | cons o out ih =>
      have ho := h o (by simp) f
      rw [flagSteps, List.foldlM_cons, ho]
      exact ih fun x hx => h x (by simp [hx])

/-- A part of a transition that changes no gauge. -/
def NoEdges (c c' : Tsm) : Prop :=
  ∃ o, c'.out = c.out ++ o ∧ ∀ x ∈ o, NoEdge x

theorem NoEdges.of_out
    {c c' : Tsm}
    (h : c'.out = c.out) :
    NoEdges c c' :=
  ⟨[], by rw [h, List.append_nil], by simp⟩

theorem NoEdges.trans
    {c c' c'' : Tsm}
    (h : NoEdges c c')
    (h' : NoEdges c' c'') :
    NoEdges c c'' := by
  obtain ⟨o, ho, hno⟩ := h
  obtain ⟨o', ho', hno'⟩ := h'
  refine ⟨o ++ o', by rw [ho', ho, List.append_assoc], fun x hx => ?_⟩
  rcases List.mem_append.1 hx with hx | hx
  · exact hno x hx
  · exact hno' x hx

theorem NoEdges.emit
    {c c' : Tsm} {o : TcpOutput}
    (h : NoEdges c c')
    (ho : NoEdge o) :
    NoEdges c (c'.emit o) :=
  h.trans ⟨[o], rfl, by simpa using ho⟩

theorem NoEdges.flagSteps_eq
    {c c' : Tsm} {f : Flags}
    (h : NoEdges c c') :
    flagSteps f c'.out = flagSteps f c.out := by
  obtain ⟨o, ho, hno⟩ := h
  rw [ho, flagSteps_append]
  cases flagSteps f c.out with
  | none =>
      rfl
  | some f' =>
      exact flagSteps_noEdge hno f'

end Flags

section Conditions

/-- A window of this size is full with this many numbers in flight. -/
def fullWith (wnd inFlight : U32) : Bool :=
  decide (wnd = inFlight)

/-- The numbers in flight. -/
def inFlight (tcb : Tcb) : U32 :=
  tcb.snd.nxt - tcb.snd.una

/-- One number, if a FIN is sent. -/
def finNumber (sent : Bool) : U32 :=
  if sent then 1 else 0

/-- The window is still counted as full when the acknowledgement is taken. -/
def stillFull (tcb : Tcb) (pcb : Pcb) (finSent : Bool) : Bool :=
  tcpSndWinFull tcb && tcpSndWinFull (ackArrived pcb finSent (Tsm.start tcb)).tcb

/-- The segment gets to the ACK processing, and its acknowledgement to the text. -/
def ReachesText (tcb : Tcb) (pcb : Pcb) (finSent : Bool) : Prop :=
  ReachesAck tcb pcb ∧ ackUsable pcb (ackArrived pcb finSent (Tsm.start tcb)).tcb = true

instance (tcb : Tcb) (pcb : Pcb) (finSent : Bool) : Decidable (ReachesText tcb pcb finSent) :=
  inferInstanceAs (Decidable (_ ∧ _))

/-- A session may be closed with these flags. -/
abbrev Leave := Flags → Bool

variable (leave : Leave) (env : TsmEnv) (tcb : Tcb) (pcb : Pcb)

/-- The session may be closed as it is. -/
def MayClose : Prop :=
  leave (flagsOf tcb) = true

instance : Decidable (MayClose leave tcb) :=
  inferInstanceAs (Decidable (_ = true))

/-- A control block may be closed as it is counted, or has its window counted right. -/
def Settled (still closes : Bool) (rcvBuf : List TcbBufHdr) (full : Bool) : Prop :=
  if closes then leave { winFull := still, missing := !rcvBuf.isEmpty } = true else still = full

instance (still closes : Bool) (rcvBuf : List TcbBufHdr) (full : Bool) :
    Decidable (Settled leave still closes rcvBuf full) := by
  unfold Settled
  infer_instance

/-- A SYN-ACK in `TS_SYN_SENT`: its window is the first one, and nothing is in flight. -/
def SynSentKept : Prop :=
  (pcb.flags.rst = true → MayClose leave tcb) ∧
  (SynAckArrives tcb pcb →
    Settled leave (tcpSndWinFull tcb)
      (textAsksClose env.answer pcb (synAckText pcb (Tsm.start tcb)).tcb) []
      (fullWith (pcb.rxWin.zeroExtend 32) 0))

/-- The control block that the text of a segment is handed to in `TS_SYN_RECV`. -/
def synRecvText : Tsm :=
  (if segGT pcb.recvAck tcb.snd.una then incUna (Tsm.start tcb) else Tsm.start tcb).onTcb
    (setSndWnd pcb)

/-- The window of the segment is the first one; a close and the FIN of the peer send a FIN. -/
def SynRecvKept : Prop :=
  (resets tcb pcb = true → MayClose leave tcb) ∧
  (ReachesAck tcb pcb →
    segGE pcb.recvAck tcb.snd.una = true → segLE pcb.recvAck tcb.snd.nxt = true →
    tcpSndWinFull tcb =
      fullWith (pcb.rxWin.zeroExtend 32)
        (inFlight (synRecvText tcb pcb).tcb +
          finNumber (textAsksClose env.answer pcb (synRecvText tcb pcb).tcb) +
          finNumber pcb.flags.fin))

/-- The window that the text of a segment leaves in `TS_ESTABLISHED`: two FINs may be sent. -/
def estabFull (c : Tsm) : Bool :=
  fullWith c.tcb.snd.wnd
    (inFlight c.tcb + finNumber (textAsksClose env.answer pcb c.tcb) +
      finNumber (estabSeesFin pcb (receiveAndAck env pcb c).tcb))

/-- The window may be updated; a close and the FIN of the peer send a FIN. -/
def EstabKept : Prop :=
  (resets tcb pcb = true → MayClose leave tcb) ∧
  (ReachesText tcb pcb false →
    stillFull tcb pcb false = estabFull env pcb (acked pcb false (Tsm.start tcb)))

/-- The FIN of the peer, the acknowledgement of ours, and `TS_TIME_WAIT` is skipped. -/
def finWaitICloses (c : Tsm) : Bool :=
  ourFinAcked pcb c.tcb && pcb.flags.fin &&
    decide ((receiveText env pcb (incUna c)).tcb.rcv.nxt = pcb.sentSeq + pcb.l5Len) &&
    env.cfg.sockopt.tcpoSkipTimewait

/-- With our FIN acknowledged, nothing is in flight. -/
def finWaitIFull (c : Tsm) : Bool :=
  if ourFinAcked pcb c.tcb then fullWith c.tcb.snd.wnd 0 else tcpSndWinFull c.tcb

/-- The window may be updated, our FIN acknowledged, and `TS_TIME_WAIT` skipped. -/
def FinWaitIKept : Prop :=
  (resets tcb pcb = true → MayClose leave tcb) ∧
  (ReachesText tcb pcb true →
    Settled leave (stillFull tcb pcb true) (finWaitICloses env pcb (acked pcb true (Tsm.start tcb)))
      (receiveText env pcb (incUna (acked pcb true (Tsm.start tcb)))).tcb.rcvBuf
      (finWaitIFull pcb (acked pcb true (Tsm.start tcb))))

/-- The window may be updated, and `TS_TIME_WAIT` skipped. -/
def FinWaitIIKept : Prop :=
  (resets tcb pcb = true → MayClose leave tcb) ∧
  (ReachesText tcb pcb false →
    Settled leave (stillFull tcb pcb false) (pcb.flags.fin && env.cfg.sockopt.tcpoSkipTimewait)
      (receiveText env pcb (acked pcb false (Tsm.start tcb))).tcb.rcvBuf
      (tcpSndWinFull (acked pcb false (Tsm.start tcb)).tcb))

/-- The window may be updated, and `TS_TIME_WAIT` skipped. -/
def ClosingKept : Prop :=
  (resets tcb pcb = true → MayClose leave tcb) ∧
  (ReachesText tcb pcb true →
    Settled leave (stillFull tcb pcb true)
      (ourFinAcked pcb (acked pcb true (Tsm.start tcb)).tcb && env.cfg.sockopt.tcpoSkipTimewait)
      tcb.rcvBuf (tcpSndWinFull (acked pcb true (Tsm.start tcb)).tcb))

/-- The uncounted changes that a segment makes leave the control block counted as it is. -/
def SegmentKept : Prop :=
  match tcb.state with
  | .synSent => SynSentKept leave env tcb pcb
  | .synRecv => SynRecvKept leave env tcb pcb
  | .established => EstabKept leave env tcb pcb
  | .finWaitI => FinWaitIKept leave env tcb pcb
  | .finWaitII => FinWaitIIKept leave env tcb pcb
  | .closing => ClosingKept leave env tcb pcb
  | .lastAck =>
      (resets tcb pcb = true → MayClose leave tcb) ∧
        (ReachesAck tcb pcb → pcb.recvAck = tcb.snd.nxt → MayClose leave tcb)
  | .timeWait => resets tcb pcb = true → MayClose leave tcb
  | .init | .listen | .closeWait | .closed => True

instance : Decidable (SegmentKept leave env tcb pcb) := by
  unfold SegmentKept SynSentKept SynRecvKept EstabKept FinWaitIKept FinWaitIIKept ClosingKept
  cases tcb.state <;> infer_instance

/-- The state gives up after too many retries. -/
def givesUp : TcpState → Bool
  | .synSent | .synRecv | .established | .finWaitI | .lastAck | .closing => true
  | .init | .listen | .finWaitII | .timeWait | .closeWait | .closed => false

/-- The slow timer ends the connection in this state. -/
def timesOut : TcpState → Bool
  | .finWaitI | .finWaitII | .timeWait => true
  | .init | .listen | .synSent | .synRecv | .established | .lastAck | .closing | .closeWait
  | .closed => false

end Conditions

/-- The uncounted changes of one input leave the control block counted as it is. -/
def EdgesKept (leave : Leave) (cfg : TcpConfig) (tcb : Tcb) (i : ConnInput) : Prop :=
  match i.event with
  | .close =>
      match tcb.state with
      | .synSent => MayClose leave tcb
      | .synRecv | .established => tcpSndWinFull tcb = fullWith tcb.snd.wnd (inFlight tcb + 1)
      | .init | .listen | .finWaitI | .finWaitII | .lastAck | .closing | .timeWait | .closeWait
      | .closed => True
  | .purge => tcb.state ≠ .listen → MayClose leave tcb
  | .rtoTimer =>
      givesUp tcb.state = true → tcb.retransCnt + 1 = retryLimit cfg tcb.state → MayClose leave tcb
  | .slowTimer => timesOut tcb.state = true → MayClose leave tcb
  | .segment pcb => SegmentKept leave (i.env cfg) tcb pcb
  | .open _ | .accept _ | .send _ => True

instance (leave : Leave) (cfg : TcpConfig) (tcb : Tcb) (i : ConnInput) :
    Decidable (EdgesKept leave cfg tcb i) := by
  unfold EdgesKept
  exact match i.event, tcb.state with
    | .close, .synSent | .close, .synRecv | .close, .established => inferInstance
    | .close, .init | .close, .listen | .close, .finWaitI | .close, .finWaitII | .close, .lastAck
    | .close, .closing | .close, .timeWait | .close, .closeWait | .close, .closed => inferInstance
    | .segment _, _ | .rtoTimer, _ | .slowTimer, _ | .purge, _ => inferInstance
    | .open _, _ | .accept _, _ | .send _, _ => inferInstance

section Tracking

/-- In the middle of a transition, the window is counted as `w` and the receive buffer right. -/
structure Tracked (f : Flags) (w : Bool) (c : Tsm) : Prop where
  flags : flagSteps f c.out = some { winFull := w, missing := !c.tcb.rcvBuf.isEmpty }
  live : c.tcb.inHtable = true

/-- The end of a transition: the session is counted as it is, or is closed. -/
inductive Ended (leave : Leave) (f : Flags) (c : Tsm) : Prop
  | rests (live : c.tcb.inHtable = true) (listen : c.tcb.state ≠ .listen)
      (flags : flagSteps f c.out = some (flagsOf c.tcb))
  | closed {g : Flags} (dead : c.tcb.inHtable = false) (may : leave g = true)
      (flags : flagSteps f c.out = some g)

/--
What the end of a transition is held to: how the window that is counted agrees with the one
that is full in a session that goes on, and what a session may be closed with.
-/
structure EndRule where
  rests : (counted full : Bool) → Prop
  leaves : Flags → (full : Bool) → Prop
  refl : ∀ full, rests full full

/-- The rule of the gauges: a session that goes on is counted as it is. -/
def EndRule.counted (leave : Leave) : EndRule :=
  { rests := fun counted full => counted = full
    leaves := fun g _ => leave g = true
    refl := fun _ => rfl }

/-- The end of a transition by a rule. -/
inductive EndedAs (rule : EndRule) (f : Flags) (c : Tsm) : Prop
  | rests {w : Bool} (live : c.tcb.inHtable = true) (listen : c.tcb.state ≠ .listen)
      (flags : flagSteps f c.out = some { winFull := w, missing := !c.tcb.rcvBuf.isEmpty })
      (full : rule.rests w (tcpSndWinFull c.tcb))
  | closed {g : Flags} (dead : c.tcb.inHtable = false)
      (may : rule.leaves g (tcpSndWinFull c.tcb)) (flags : flagSteps f c.out = some g)

variable {rule : EndRule} {leave : Leave} {cfg : TcpConfig} {f : Flags} {w : Bool} {c c' : Tsm}

/-- The rule of the gauges is the one they are read by. -/
theorem EndedAs.ended
    (h : EndedAs (.counted leave) f c) :
    Ended leave f c := by
  cases h with
  | rests live listen flags full =>
      exact .rests live listen (by rw [flags, show _ = tcpSndWinFull c.tcb from full]; rfl)
  | closed dead may flags =>
      exact .closed dead may flags

/-- A rule for a session that may go on or be closed. -/
def EndRule.Settled
    (rule : EndRule) (still closes : Bool) (rcvBuf : List TcbBufHdr) (full : Bool) : Prop :=
  if closes then rule.leaves { winFull := still, missing := !rcvBuf.isEmpty } full
  else rule.rests still full

theorem Tracked.start
    {tcb : Tcb}
    (hlive : tcb.inHtable = true) :
    Tracked (flagsOf tcb) (tcpSndWinFull tcb) (Tsm.start tcb) :=
  ⟨rfl, hlive⟩

/-- Effects without an edge, and changes that leave the receive buffer alone. -/
theorem Tracked.keep
    (h : Tracked f w c)
    (hlive : c'.tcb.inHtable = c.tcb.inHtable)
    (hbuf : c'.tcb.rcvBuf = c.tcb.rcvBuf)
    (hout : NoEdges c c') :
    Tracked f w c' :=
  ⟨by rw [hout.flagSteps_eq, h.flags, hbuf], hlive.trans h.live⟩

theorem Tracked.emit
    {o : TcpOutput}
    (h : Tracked f w c)
    (ho : NoEdge o) :
    Tracked f w (c.emit o) :=
  h.keep rfl rfl ((NoEdges.of_out rfl).emit ho)

theorem Tracked.pkt
    (h : Tracked f w c) (sseq : U32) (flags : TcpFlags) :
    Tracked f w (c.tcpSendCtrlPktWithSseq sseq flags) :=
  h.emit fun _ => rfl

theorem Tracked.fail
    (h : Tracked f w c) (e : Errno) :
    Tracked f w (c.fail e) :=
  h.keep rfl rfl (NoEdges.of_out rfl)

theorem Tracked.onTcb
    {g : Tcb → Tcb}
    (h : Tracked f w c)
    (hlive : (g c.tcb).inHtable = c.tcb.inHtable)
    (hbuf : (g c.tcb).rcvBuf = c.tcb.rcvBuf) :
    Tracked f w (c.onTcb g) :=
  h.keep hlive hbuf (NoEdges.of_out rfl)

theorem Tracked.setState
    (h : Tracked f w c) (s : TcpState) :
    Tracked f w (setState s c) :=
  (h.onTcb (g := fun tcb => { tcb with state := s }) rfl rfl).emit fun _ => rfl

theorem Tracked.sendFin
    (h : Tracked f w c) :
    Tracked f w (sendFin c) :=
  (h.pkt _ _).onTcb rfl rfl

theorem Tracked.schedule
    (h : Tracked f w c) :
    Tracked f w (c.onTcb (tsmScheduleRetransmission cfg)) :=
  h.onTcb (by rw [tsmScheduleRetransmission_eq]) (by rw [tsmScheduleRetransmission_eq])

theorem Tracked.slowSet
    (h : Tracked f w c) (timeout : U32) :
    Tracked f w (c.onTcb (tcpTimerSlowSet cfg timeout)) :=
  h.onTcb (by rw [tcpTimerSlowSet_eq]) (by rw [tcpTimerSlowSet_eq])

theorem Tracked.enterFinWaitI
    (h : Tracked f w c) :
    Tracked f w (enterFinWaitI cfg c) :=
  ((h.setState .finWaitI).sendFin.schedule).slowSet _

theorem Tracked.enterCloseWait
    (h : Tracked f w c) :
    Tracked f w (enterCloseWait cfg c) :=
  ((h.setState .closeWait).sendFin.setState .lastAck).schedule

/-- The control block is left alive, with a window that agrees with what is counted. -/
theorem Tracked.ended
    (h : Tracked f w c)
    (hlisten : c.tcb.state ≠ .listen)
    (hfull : rule.rests w (tcpSndWinFull c.tcb)) :
    EndedAs rule f c :=
  .rests h.live hlisten h.flags hfull

/-- A silent close sends nothing that changes a gauge. -/
theorem tcpSilentClose_noEdges
    (c : Tsm) :
    NoEdges c (tcpSilentClose c) := by
  unfold tcpSilentClose
  simp only
  split
  · exact NoEdges.of_out rfl
  · have hrst : NoEdges c (c.tcpSendCtrlPkt { ack := true, rst := true }) :=
      (NoEdges.of_out rfl).emit fun _ => rfl
    exact hrst.trans (NoEdges.of_out rfl)

theorem tcpSilentClose_full
    (c : Tsm) :
    tcpSndWinFull (tcpSilentClose c).tcb = tcpSndWinFull c.tcb := by
  unfold tcpSilentClose
  simp only
  split <;> rfl

/-- A control block that may be closed as it is counted. -/
theorem Tracked.silentClose
    (h : Tracked f w c)
    (hleave :
      rule.leaves { winFull := w, missing := !c.tcb.rcvBuf.isEmpty } (tcpSndWinFull c.tcb)) :
    EndedAs rule f (tcpSilentClose c) :=
  .closed (tcpSilentClose_dead c).1 ((tcpSilentClose_full c).symm ▸ hleave)
    ((tcpSilentClose_noEdges c).flagSteps_eq.trans h.flags)

theorem Tracked.enterClosed
    (h : Tracked f w c)
    (hleave :
      rule.leaves { winFull := w, missing := !c.tcb.rcvBuf.isEmpty } (tcpSndWinFull c.tcb)) :
    EndedAs rule f (enterClosed c) :=
  ((h.setState .closed).emit (o := .notif .sessClosed) fun _ => rfl).silentClose hleave

theorem Tracked.notifyAndClose
    (h : Tracked f w c)
    (hleave :
      rule.leaves { winFull := w, missing := !c.tcb.rcvBuf.isEmpty } (tcpSndWinFull c.tcb)) :
    EndedAs rule f (notifyAndClose c) :=
  (h.emit (o := .notif .sessClosing) fun _ => rfl).enterClosed hleave

theorem Tracked.enterTimeWait
    (h : Tracked f w c)
    (hskip :
      cfg.sockopt.tcpoSkipTimewait = true →
        rule.leaves { winFull := w, missing := !c.tcb.rcvBuf.isEmpty } (tcpSndWinFull c.tcb))
    (hstay : cfg.sockopt.tcpoSkipTimewait = false → rule.rests w (tcpSndWinFull c.tcb)) :
    EndedAs rule f (enterTimeWait cfg c) := by
  have hset : Tracked f w ((TcpStateMachine.setState .timeWait c).onTcb
      (tcpTimerSlowCancel ∘ tcpTimerRtoCancel)) :=
    (h.setState .timeWait).onTcb rfl rfl
  unfold TcpStateMachine.enterTimeWait
  simp only
  split
  · rename_i hyes
    exact hset.enterClosed (hskip hyes)
  · rename_i hno
    refine (hset.slowSet _).ended ?_ ?_
    · rw [onTcb_tcb, tcpTimerSlowSet_eq]
      simp [TcpStateMachine.setState, tcpTimerSlowCancel, tcpTimerRtoCancel]
    · have hfull : tcpSndWinFull (((TcpStateMachine.setState .timeWait c).onTcb
          (tcpTimerSlowCancel ∘ tcpTimerRtoCancel)).onTcb
            (tcpTimerSlowSet cfg cfg.sockopt.tcpoTwaitTo)).tcb = tcpSndWinFull c.tcb := by
        rw [onTcb_tcb, tcpTimerSlowSet_eq]
        rfl
      rw [hfull]
      exact hstay (by simpa using hno)

end Tracking

section Window

variable {cfg : TcpConfig} {f : Flags} {w : Bool} {c : Tsm}

/-- The clean-up discounts a window that it opens. -/
theorem Tracked.cleanup
    (h : Tracked f (tcpSndWinFull c.tcb) c) (segAck : U32) :
    Tracked f (tcpSndWinFull c.tcb && tcpSndWinFull (tsmCleanupRetransQueu c segAck).tcb)
      (tsmCleanupRetransQueu c segAck) := by
  simp only [tsmCleanupRetransQueu]
  split
  · simpa using h
  · split
    · simpa using h
    · have hclean : Tracked f (tcpSndWinFull c.tcb)
          (c.onTcb (cleanedTcb · segAck (segDIFF segAck c.tcb.snd.una))) :=
        h.onTcb rfl rfl
      split
      · rename_i hopens
        rw [Bool.and_eq_true, Bool.not_eq_true'] at hopens
        have hflags := hclean.flags
        rw [hopens.1] at hflags
        rw [tcpNotif_tcb, hopens.2, Bool.and_false]
        refine ⟨?_, hclean.live⟩
        rw [tcpNotif_out, flagSteps_append, hflags]
        rfl
      · rename_i hkeeps
        have hsame : (tcpSndWinFull c.tcb && tcpSndWinFull (c.onTcb
            (cleanedTcb · segAck (segDIFF segAck c.tcb.snd.una))).tcb) =
              tcpSndWinFull c.tcb := by
          rw [Bool.and_eq_true, Bool.not_eq_true', not_and, Bool.not_eq_false] at hkeeps
          cases hfull : tcpSndWinFull c.tcb with
          | true =>
              rw [hkeeps hfull]
              rfl
          | false =>
              rfl
        rw [hsame]
        exact hclean

theorem Tracked.arrived
    (h : Tracked f (tcpSndWinFull c.tcb) c) (pcb : Pcb) (finSent : Bool) :
    Tracked f (tcpSndWinFull c.tcb && tcpSndWinFull (ackArrived pcb finSent c).tcb)
      (ackArrived pcb finSent c) :=
  ackArrived_elim
    (P := fun c' => Tracked f (tcpSndWinFull c.tcb && tcpSndWinFull c'.tcb) c')
    (by simpa using h) (fun _ _ _ => h.cleanup _) fun _ _ _ => h.cleanup _

theorem Tracked.acked
    (h : Tracked f (tcpSndWinFull c.tcb) c) (pcb : Pcb) (finSent : Bool) :
    Tracked f (tcpSndWinFull c.tcb && tcpSndWinFull (ackArrived pcb finSent c).tcb)
      (acked pcb finSent c) := by
  refine (h.arrived pcb finSent).onTcb ?_ ?_
  · unfold updateSndWnd
    split <;> rfl
  · unfold updateSndWnd
    split <;> rfl

/-- A window that the transition fills is counted, when nothing can open it. -/
theorem Tracked.unavail
    (h : Tracked f w c)
    (hkeeps : w = true → tcpSndWinFull c.tcb = true) :
    Tracked f (tcpSndWinFull c.tcb) (notifyWinUnavail w c) := by
  unfold notifyWinUnavail
  cases hw : w with
  | true =>
      rw [hw] at h
      rw [hkeeps hw]
      exact h
  | false =>
      rw [hw] at h
      split
      · rename_i hfull
        have hfull' : tcpSndWinFull c.tcb = true := by simpa using hfull
        rw [hfull']
        refine ⟨?_, h.live⟩
        rw [tcpNotif_out, flagSteps_append, h.flags]
        rfl
      · rename_i hfull
        have hfull' : tcpSndWinFull c.tcb = false := by simpa using hfull
        rw [hfull']
        exact h

/-- Nothing may be sent into a full window. -/
theorem tcpDataSend_full
    {env : TsmEnv} {data : TsmDataArg}
    (hfull : tcpSndWinFull c.tcb = true) :
    tcpSndWinFull (tcpDataSend env c data).tcb = true := by
  rw [tcpSndWinFull, decide_eq_true_eq] at hfull
  have hsnd : (tcpDataStoreSend env.cfg c.tcb data.tdaMbuf).1.snd = c.tcb.snd := by
    unfold tcpDataStoreSend
    split <;> rfl
  have hroom : sendableSize (tcpDataStoreSend env.cfg c.tcb data.tdaMbuf).1 = 0 := by
    have hzero : segDIFF c.tcb.snd.wnd (segDIFF c.tcb.snd.nxt c.tcb.snd.una) = 0 := by
      rw [hfull, segDIFF, sub_self]
    simp only [sendableSize, hsnd, hzero]
    split
    · rename_i hlt
      rw [BitVec.lt_def] at hlt
      exact absurd hlt (Nat.not_lt_zero _)
    · rfl
  have hkeep : tcpSndWinFull (tcpDataStoreSend env.cfg c.tcb data.tdaMbuf).1 = true := by
    rw [tcpSndWinFull, hsnd, decide_eq_true_eq]
    exact hfull
  have hnone : ∀ (c' : Tsm) segs off sseq flags,
      (tcpDataSendSegments env c' segs (0 : U32).toNat off sseq flags).1 = c' := by
    intro c' segs off sseq flags
    simp [tcpDataSendSegments, sendSegmentsLoop]
  simp only [tcpDataSend, hroom, hnone]
  split
  · exact hkeep
  · split <;> split <;> exact hkeep

/-- Segments that start below `SND.NXT` and end at it or below do not move it. -/
theorem followNxt_below
    (nxt : U32) {d : Nat} {ns : List Nat}
    (hpos : ∀ n ∈ ns, 0 < n)
    (hsum : ns.sum ≤ d)
    (hd : d < 2 ^ 32) :
    followNxt nxt (nxt - BitVec.ofNat 32 d) ns = nxt := by
  induction ns generalizing d with
  | nil =>
      rfl
  | cons n ns ih =>
      have hn := hpos n (by simp)
      rw [List.sum_cons] at hsum
      have hne : nxt - BitVec.ofNat 32 d ≠ nxt := by
        intro heq
        have hzero : BitVec.ofNat 32 d = 0 := by
          rw [sub_eq_self] at heq
          exact heq
        have hnat := congrArg BitVec.toNat hzero
        rw [BitVec.toNat_ofNat, Nat.mod_eq_of_lt hd] at hnat
        have h0 : (0 : U32).toNat = 0 := rfl
        omega
      have hnext : nxt - BitVec.ofNat 32 d + BitVec.ofNat 32 n =
          nxt - BitVec.ofNat 32 (d - n) := by
        rw [← SerialArithmetic.ofNat_sub_ofNat (show n ≤ d by omega)]
        abel
      rw [followNxt, if_neg hne, hnext]
      exact ih (fun m hm => hpos m (by simp [hm])) (by omega) (by omega)

theorem segSizes_pos
    {mtu : Nat} {sendOk : Nat → Bool}
    (hmtu : 0 < mtu) (fuel i len : Nat) :
    ∀ n ∈ segSizes mtu sendOk fuel i len, 0 < n := by
  induction fuel generalizing i len with
  | zero =>
      simp [segSizes]
  | succ fuel ih =>
      intro n hn
      rw [segSizes] at hn
      split at hn
      · simp at hn
      · split at hn
        · rcases List.mem_cons.1 hn with rfl | hn
          · omega
          · exact ih _ _ n hn
        · simp at hn

theorem segSizes_sum
    (mtu : Nat) (sendOk : Nat → Bool) (fuel i len : Nat) :
    (segSizes mtu sendOk fuel i len).sum ≤ len := by
  induction fuel generalizing i len with
  | zero =>
      simp [segSizes]
  | succ fuel ih =>
      rw [segSizes]
      split
      · simp
      · split
        · rw [List.sum_cons]
          have hrest := ih (i + 1) (len - min len mtu)
          omega
        · simp

/-- A retransmission into a full window sends nothing new. -/
theorem tcpDataRetrans_full
    {env : TsmEnv} {k : Nat}
    (hcfg : ConfigOk env.cfg)
    (hqueue : QueueFlight env.cfg k c.tcb)
    (hfull : tcpSndWinFull c.tcb = true) :
    tcpSndWinFull (tcpDataRetrans env c).tcb = true := by
  have hw := hcfg.winSize
  obtain ⟨heq, -⟩ := tcpDataRetrans_spec env hcfg.mtu hqueue.queue (by omega)
  have hflight : c.tcb.snd.wnd = c.tcb.snd.nxt - c.tcb.snd.una := of_decide_eq_true hfull
  have hsize : (retransSize c.tcb).toNat ≤ c.tcb.snd.wnd.toNat := by
    unfold retransSize
    split
    · rename_i hlt
      rw [BitVec.lt_def] at hlt
      omega
    · exact le_rfl
  have huna : c.tcb.snd.una = c.tcb.snd.nxt - BitVec.ofNat 32 c.tcb.snd.wnd.toNat := by
    rw [BitVec.ofNat_toNat, BitVec.setWidth_eq, hflight]
    abel
  have hnxt : followNxt c.tcb.snd.nxt c.tcb.snd.una (retransSizes env c.tcb) =
      c.tcb.snd.nxt := by
    rw [huna]
    exact followNxt_below _ (segSizes_pos hcfg.mtu _ _ _)
      ((segSizes_sum _ _ _ _ _).trans hsize) c.tcb.snd.wnd.isLt
  rw [heq, tcpSndWinFull, decide_eq_true_eq]
  simp only [sentSegs, hnxt]
  exact hflight

end Window

section Text

variable {env : TsmEnv} {pcb : Pcb} {f : Flags} {w : Bool} {c : Tsm}

theorem enterClosed_noEdges
    (c : Tsm) :
    NoEdges c (enterClosed c) := by
  have hset : NoEdges c ((setState .closed c).tcpNotif .sessClosed) :=
    ((NoEdges.of_out rfl).emit (o := .enter .closed) fun _ => rfl).emit fun _ => rfl
  exact hset.trans (tcpSilentClose_noEdges _)

theorem notifyAndClose_noEdges
    (c : Tsm) :
    NoEdges c (notifyAndClose c) := by
  have hnotif : NoEdges c (c.tcpNotif .sessClosing) := (NoEdges.of_out rfl).emit fun _ => rfl
  exact hnotif.trans (enterClosed_noEdges _)

/-- A close changes no gauge. -/
theorem tsmClose_noEdges
    (cfg : TcpConfig) (c : Tsm) :
    NoEdges c (tsmClose cfg c) := by
  have hfinWait : NoEdges c (enterFinWaitI cfg (c.tcpNotif .sessClosing)) := by
    have hset : NoEdges c (setState .finWaitI (c.tcpNotif .sessClosing)) :=
      ((NoEdges.of_out rfl).emit (o := .notif .sessClosing) fun _ => rfl).emit fun _ => rfl
    exact (hset.emit fun _ => rfl).trans (NoEdges.of_out rfl)
  unfold tsmClose
  split
  · exact enterClosed_noEdges c
  · exact notifyAndClose_noEdges c
  · exact notifyAndClose_noEdges c
  · exact hfinWait
  · exact hfinWait
  all_goals exact NoEdges.of_out rfl

/-- `tsm_handle_incoming()` compares the receive buffer before and after. -/
theorem flagSteps_countMissingSeq
    {m : Bool} {c : Tsm}
    (h : flagSteps f c.out = some { winFull := w, missing := m }) :
    flagSteps f (countMissingSeq m c).out =
      some { winFull := w, missing := !(countMissingSeq m c).tcb.rcvBuf.isEmpty } := by
  rw [countMissingSeq_tcb]
  unfold countMissingSeq
  simp only
  cases m with
  | true =>
      cases hmissing : !c.tcb.rcvBuf.isEmpty with
      | true =>
          simpa using h
      | false =>
          simp only [Bool.not_true, Bool.false_eq_true, if_false, Bool.not_false,
            Bool.and_self, if_true, emit_out, flagSteps_append, h]
          rfl
  | false =>
      cases hmissing : !c.tcb.rcvBuf.isEmpty with
      | true =>
          simp only [Bool.not_false, Bool.and_self, if_true, emit_out, flagSteps_append, h]
          rfl
      | false =>
          simpa using h

/-- Receiving text changes the window's gauge nowhere, and keeps the other one right. -/
theorem flagSteps_receiveText
    (env : TsmEnv) (pcb : Pcb)
    (h : Tracked f w c) :
    flagSteps f (receiveText env pcb c).out =
      some { winFull := w, missing := !(receiveText env pcb c).tcb.rcvBuf.isEmpty } := by
  unfold receiveText
  split
  · exact h.flags
  · simp only [tsmHandleIncoming]
    refine flagSteps_countMissingSeq ?_
    have hhandled : ∀ r : HandleResult,
        flagSteps f (handled c r).out =
          some { winFull := w, missing := !c.tcb.rcvBuf.isEmpty } := by
      intro r
      rw [handled, flagSteps_append, flagSteps_append, h.flags]
      have hcalls : ∀ x ∈ r.calls.map TcpOutput.deliver, NoEdge x := by
        intro x hx
        obtain ⟨call, -, rfl⟩ := List.mem_map.1 hx
        exact fun _ => rfl
      rw [Option.bind_some, flagSteps_noEdge hcalls, Option.bind_some]
      refine flagSteps_noEdge (fun x hx => ?_) _
      split at hx
      · rw [List.mem_singleton.1 hx]
        exact fun _ => rfl
      · simp at hx
    split
    · rw [(tsmClose_noEdges env.cfg _).flagSteps_eq]
      exact hhandled _
    · exact hhandled _

/-- Closing counts one number. -/
theorem enterFinWaitI_fields
    (cfg : TcpConfig) (c : Tsm) :
    (enterFinWaitI cfg c).tcb.snd = { c.tcb.snd with nxt := c.tcb.snd.nxt + 1 } ∧
      (enterFinWaitI cfg c).tcb.inHtable = c.tcb.inHtable := by
  rw [enterFinWaitI, onTcb_tcb, Function.comp_apply, tcpTimerSlowSet_eq,
    tsmScheduleRetransmission_eq]
  exact ⟨rfl, rfl⟩

theorem enterCloseWait_fields
    (cfg : TcpConfig) (c : Tsm) :
    (enterCloseWait cfg c).tcb.snd = { c.tcb.snd with nxt := c.tcb.snd.nxt + 1 } := by
  rw [enterCloseWait, enterLastAck, onTcb_tcb, tsmScheduleRetransmission_eq]
  rfl

/-- What the text leaves of the sending half where the application may close. -/
structure TextLeft (env : TsmEnv) (pcb : Pcb) (c c' : Tsm) : Prop where
  snd :
    c'.tcb.snd =
      { c.tcb.snd with
        nxt := c.tcb.snd.nxt + finNumber (textAsksClose env.answer pcb c.tcb) }
  live : c'.tcb.inHtable = c.tcb.inHtable
  state : c'.tcb.state = c.tcb.state ∨ c'.tcb.state = .finWaitI

theorem receiveText_left
    (hstate : c.tcb.state = .established ∨ c.tcb.state = .synRecv) :
    TextLeft env pcb c (receiveText env pcb c) := by
  cases hasks : textAsksClose env.answer pcb c.tcb with
  | false =>
      have hquiet := receiveText_quiet hasks
      refine ⟨?_, hquiet.same.inHtable, Or.inl hquiet.same.state⟩
      rw [hquiet.same.snd, hasks, finNumber, if_neg (by simp), add_zero]
  | true =>
      obtain ⟨c₁, hbefore, hafter⟩ := receiveText_asks hasks
      have hclose : tsmClose env.cfg c₁ =
          enterFinWaitI env.cfg (c₁.tcpNotif .sessClosing) := by
        rcases hstate with hstate | hstate <;>
          simp only [tsmClose, hbefore.same.state, hstate]
      rw [hclose] at hafter
      obtain ⟨hsnd, hlive⟩ := enterFinWaitI_fields env.cfg (c₁.tcpNotif .sessClosing)
      refine ⟨?_, ?_, Or.inr (hafter.same.state.trans (enterFinWaitI_state _ _))⟩
      · rw [hafter.same.snd, hsnd, tcpNotif_tcb, hbefore.same.snd, hasks, finNumber, if_pos rfl]
      · rw [hafter.same.inHtable, hlive, tcpNotif_tcb, hbefore.same.inHtable]

/-- Receiving and acknowledging is receiving, and perhaps an ACK. -/
theorem receiveAndAck_cases
    (env : TsmEnv) (pcb : Pcb) (c : Tsm) :
    receiveAndAck env pcb c = receiveText env pcb c ∨
      receiveAndAck env pcb c = (receiveText env pcb c).tcpSendAckPkt := by
  unfold receiveAndAck receiveText
  split
  · exact Or.inl rfl
  · simp only
    split
    · exact Or.inr rfl
    · exact Or.inl rfl

theorem Tracked.receiveAndAck
    (env : TsmEnv) (pcb : Pcb)
    (h : Tracked f w c)
    (hstate : c.tcb.state = .established ∨ c.tcb.state = .synRecv) :
    Tracked f w (receiveAndAck env pcb c) ∧
      TextLeft env pcb c (receiveAndAck env pcb c) := by
  have hleft : TextLeft env pcb c (receiveText env pcb c) := receiveText_left hstate
  have htext : Tracked f w (receiveText env pcb c) :=
    ⟨flagSteps_receiveText env pcb h, hleft.live.trans h.live⟩
  rcases receiveAndAck_cases env pcb c with heq | heq
  · rw [heq]
    exact ⟨htext, hleft⟩
  · rw [heq]
    exact ⟨htext.pkt _ _, ⟨hleft.snd, hleft.live, hleft.state⟩⟩

/-- In the closing states a request to close is refused. -/
theorem Tracked.receiveText
    (env : TsmEnv) (pcb : Pcb)
    (h : Tracked f w c)
    (hstate : c.tcb.state = .finWaitI ∨ c.tcb.state = .finWaitII) :
    Tracked f w (receiveText env pcb c) ∧ SameSend c.tcb (receiveText env pcb c).tcb := by
  have hquiet := (receiveText_done env pcb c).quiet_of_closing hstate
  exact ⟨⟨flagSteps_receiveText env pcb h, hquiet.same.inHtable.trans h.live⟩, hquiet.same⟩

end Text

end SessionGauges
end Warp17
