import Warp17.SendInvariants

/-!
# The states a transition enters

A transition reports every state it enters.  `EntersOk` says that a list of entered states is
a path from the state the transition began in: no state is entered twice in a row, `TS_LISTEN`
is neither left nor entered, and nothing is entered after `TS_CLOSED`.  `Traced` says that a
transition has followed such a path to the state the control block is in.

Two kinds of transition do not follow a path: a listening control block is closed, and a
delivery callback closes the connection while the data of a SYN-ACK is handed to it.  Both
leave a control block that is not in the lookup table (`connStep_traced`).
-/

namespace Warp17
namespace StateTraces

open GuardedRuns SequenceComparison MbufChains ControlBlock ReceiveBuffer SendQueue
open RetransmissionQueue TcpStateMachine TransitionPaths ConnectionRuns SendInvariants

section Paths

/-- The states among the effects of a transition. -/
def enters (out : List TcpOutput) : List TcpState :=
  out.filterMap fun
    | .enter s => some s
    | _ => none

@[simp] theorem enters_append
    (out out' : List TcpOutput) :
    enters (out ++ out') = enters out ++ enters out' := by
  simp [enters]

theorem enters_quiet
    {out : List TcpOutput}
    (h : ∀ x ∈ out, QuietOutput x) :
    enters out = [] := by
  induction out with
  | nil =>
      rfl
  | cons x xs ih =>
      have hx := h x (by simp)
      have hxs := ih fun y hy => h y (by simp [hy])
      cases x with
      | enter s =>
          exact absurd hx id
      | pkt _ | notif _ | deliver _ | asserted | missingSeq _ =>
          exact hxs

/-- The state a path ends in. -/
def lastState : TcpState → List TcpState → TcpState
  | cur, [] => cur
  | _, s :: es => lastState s es

/-- A path: no state twice in a row, `TS_LISTEN` avoided, nothing after `TS_CLOSED`. -/
def EntersOk : TcpState → List TcpState → Prop
  | _, [] => True
  | cur, s :: es =>
      cur ≠ .listen ∧ cur ≠ .closed ∧ s ≠ cur ∧ s ≠ .listen ∧ EntersOk s es

theorem lastState_snoc
    (cur : TcpState) (es : List TcpState) (s : TcpState) :
    lastState cur (es ++ [s]) = s := by
  induction es generalizing cur with
  | nil =>
      rfl
  | cons e es ih =>
      exact ih e

theorem entersOk_snoc
    {cur : TcpState} {es : List TcpState} {s : TcpState}
    (h : EntersOk cur es)
    (hlisten : lastState cur es ≠ .listen)
    (hclosed : lastState cur es ≠ .closed)
    (hne : s ≠ lastState cur es)
    (hs : s ≠ .listen) :
    EntersOk cur (es ++ [s]) := by
  induction es generalizing cur with
  | nil =>
      exact ⟨hlisten, hclosed, hne, hs, trivial⟩
  | cons e es ih =>
      obtain ⟨h₁, h₂, h₃, h₄, hrest⟩ := h
      exact ⟨h₁, h₂, h₃, h₄, ih hrest hlisten hclosed hne⟩

end Paths

section Traces

/-- After the effects `pre`, the transition has followed a path from `cur` to its state. -/
structure Traced (pre : List TcpOutput) (cur : TcpState) (c : Tsm) : Prop where
  path :
    ∃ o, c.out = pre ++ o ∧ EntersOk cur (enters o) ∧ c.tcb.state = lastState cur (enters o)
  live : c.tcb.inHtable = decide (c.tcb.state ≠ .closed)

variable {cfg : TcpConfig} {pre : List TcpOutput} {cur : TcpState} {c c' : Tsm}

/-- The beginning of a transition of a live control block. -/
theorem Traced.start
    {tcb : Tcb}
    (hlive : tcb.inHtable = true)
    (hclosed : tcb.state ≠ .closed) :
    Traced [] tcb.state (Tsm.start tcb) :=
  ⟨⟨[], rfl, trivial, rfl⟩, by simp [Tsm.start, hlive, hclosed]⟩

/-- Effects and changes that have nothing to do with the state. -/
theorem Traced.keep
    (h : Traced pre cur c)
    (hstate : c'.tcb.state = c.tcb.state)
    (hlive : c'.tcb.inHtable = c.tcb.inHtable)
    (hout : ∃ o, c'.out = c.out ++ o ∧ enters o = []) :
    Traced pre cur c' := by
  obtain ⟨o, ho, hok, hlast⟩ := h.path
  obtain ⟨o', ho', hnone⟩ := hout
  refine ⟨⟨o ++ o', ?_, ?_, ?_⟩, ?_⟩
  · rw [ho', ho, List.append_assoc]
  · rw [enters_append, hnone, List.append_nil]
    exact hok
  · rw [enters_append, hnone, List.append_nil, hstate]
    exact hlast
  · rw [hlive, hstate]
    exact h.live

theorem Traced.quiet
    (h : Traced pre cur c)
    (hquiet : Quiet c c') :
    Traced pre cur c' := by
  obtain ⟨o, ho, hq⟩ := hquiet.out
  exact h.keep hquiet.same.state hquiet.same.inHtable ⟨o, ho, enters_quiet hq⟩

theorem Traced.notif
    (h : Traced pre cur c) (n : TestNotif) :
    Traced pre cur (c.tcpNotif n) :=
  h.keep rfl rfl ⟨[.notif n], rfl, rfl⟩

theorem Traced.pkt
    (h : Traced pre cur c) (sseq : U32) (flags : TcpFlags) :
    Traced pre cur (c.tcpSendCtrlPktWithSseq sseq flags) :=
  h.keep rfl rfl ⟨_, rfl, rfl⟩

theorem Traced.onTcb
    {f : Tcb → Tcb}
    (h : Traced pre cur c)
    (hstate : (f c.tcb).state = c.tcb.state)
    (hlive : (f c.tcb).inHtable = c.tcb.inHtable) :
    Traced pre cur (c.onTcb f) :=
  h.keep hstate hlive ⟨[], by simp, rfl⟩

/-- The next state of the path. -/
theorem Traced.setState
    {s : TcpState}
    (h : Traced pre cur c)
    (hlisten : c.tcb.state ≠ .listen)
    (hclosed : c.tcb.state ≠ .closed)
    (hne : s ≠ c.tcb.state)
    (hs : s ≠ .listen ∧ s ≠ .closed) :
    Traced pre cur (setState s c) := by
  obtain ⟨o, ho, hok, hlast⟩ := h.path
  refine ⟨⟨o ++ [.enter s], ?_, ?_, ?_⟩, ?_⟩
  · simp [TcpStateMachine.setState, ho]
  · rw [enters_append]
    rw [hlast] at hlisten hclosed hne
    exact entersOk_snoc hok hlisten hclosed hne hs.1
  · rw [enters_append]
    exact (lastState_snoc cur _ s).symm
  · have hlive := h.live
    simpa [TcpStateMachine.setState, hs.2, hclosed] using hlive

/-- A silent close sends at most a RST, and leaves the state alone. -/
theorem tcpSilentClose_out
    (c : Tsm) :
    (tcpSilentClose c).tcb.state = c.tcb.state ∧
      ∃ o, (tcpSilentClose c).out = c.out ++ o ∧ ∀ x ∈ o, QuietOutput x := by
  unfold tcpSilentClose
  simp only
  split
  · exact ⟨rfl, [], by simp, by simp⟩
  · have hrst : Quiet c (c.tcpSendCtrlPkt { ack := true, rst := true }) := quiet_ctrl c _ rfl
    exact ⟨rfl, hrst.out⟩

theorem Traced.enterClosed
    (h : Traced pre cur c)
    (hlisten : c.tcb.state ≠ .listen)
    (hclosed : c.tcb.state ≠ .closed) :
    Traced pre cur (enterClosed c) := by
  obtain ⟨o, ho, hok, hlast⟩ := h.path
  obtain ⟨hstate, o', ho', hquiet⟩ := tcpSilentClose_out
    ((TcpStateMachine.setState .closed c).tcpNotif .sessClosed)
  have hdead := tcpSilentClose_dead ((TcpStateMachine.setState .closed c).tcpNotif .sessClosed)
  have hend : (TcpStateMachine.enterClosed c).tcb.state = .closed := hstate
  have hpath : enters (o ++ [.enter .closed, .notif .sessClosed] ++ o') =
      enters o ++ [.closed] := by
    rw [enters_append, enters_append, enters_quiet hquiet, List.append_nil]
    rfl
  refine ⟨⟨o ++ [.enter .closed, .notif .sessClosed] ++ o', ?_, ?_, ?_⟩, ?_⟩
  · rw [TcpStateMachine.enterClosed, ho']
    simp [TcpStateMachine.setState, ho]
  · rw [hpath]
    rw [hlast] at hlisten hclosed
    exact entersOk_snoc hok hlisten hclosed (Ne.symm hclosed) (by simp)
  · rw [hpath, hend, lastState_snoc]
  · rw [hend]
    exact hdead.1

/-- A state from which the connection can go on. -/
def Between (s : TcpState) : Prop :=
  s ≠ .listen ∧ s ≠ .closed ∧ s ≠ .closeWait

theorem Traced.notifyAndClose
    (h : Traced pre cur c)
    (hlisten : c.tcb.state ≠ .listen)
    (hclosed : c.tcb.state ≠ .closed) :
    Traced pre cur (notifyAndClose c) :=
  (h.notif .sessClosing).enterClosed hlisten hclosed

theorem Traced.sendFin
    (h : Traced pre cur c) :
    Traced pre cur (sendFin c) :=
  (h.pkt _ _).onTcb rfl rfl

theorem Traced.schedule
    (h : Traced pre cur c) :
    Traced pre cur (c.onTcb (tsmScheduleRetransmission cfg)) :=
  h.onTcb (by rw [tsmScheduleRetransmission_eq]) (by rw [tsmScheduleRetransmission_eq])

theorem Traced.slowSet
    (h : Traced pre cur c) (timeout : U32) :
    Traced pre cur (c.onTcb (tcpTimerSlowSet cfg timeout)) :=
  h.onTcb (by rw [tcpTimerSlowSet_eq]) (by rw [tcpTimerSlowSet_eq])

theorem Traced.enterFinWaitI
    (h : Traced pre cur c)
    (hs : Between c.tcb.state)
    (hne : c.tcb.state ≠ .finWaitI) :
    Traced pre cur (enterFinWaitI cfg c) :=
  ((h.setState hs.1 hs.2.1 (Ne.symm hne) (by simp)).sendFin.schedule).slowSet _

theorem Traced.enterCloseWait
    (h : Traced pre cur c)
    (hs : Between c.tcb.state) :
    Traced pre cur (enterCloseWait cfg c) := by
  have hwait := (h.setState hs.1 hs.2.1 (Ne.symm hs.2.2) (by simp)).sendFin
  have hlast : Traced pre cur
      (TcpStateMachine.setState .lastAck (TcpStateMachine.sendFin
        (TcpStateMachine.setState .closeWait c))) :=
    hwait.setState (by simp [TcpStateMachine.sendFin, TcpStateMachine.setState])
      (by simp [TcpStateMachine.sendFin, TcpStateMachine.setState])
      (by simp [TcpStateMachine.sendFin, TcpStateMachine.setState]) (by simp)
  exact hlast.schedule

theorem Traced.enterTimeWait
    (h : Traced pre cur c)
    (hs : Between c.tcb.state)
    (hne : c.tcb.state ≠ .timeWait) :
    Traced pre cur (enterTimeWait cfg c) := by
  have hset := h.setState hs.1 hs.2.1 (Ne.symm hne) (by simp)
  have hcancel := hset.onTcb (f := tcpTimerSlowCancel ∘ tcpTimerRtoCancel) rfl rfl
  have hstate : ((TcpStateMachine.setState .timeWait c).onTcb
      (tcpTimerSlowCancel ∘ tcpTimerRtoCancel)).tcb.state = .timeWait := rfl
  unfold TcpStateMachine.enterTimeWait
  simp only
  split
  · exact hcancel.enterClosed (by rw [hstate]; simp) (by rw [hstate]; simp)
  · exact hcancel.slowSet _

end Traces

section Segments

variable {cfg : TcpConfig} {pre : List TcpOutput} {cur : TcpState}

theorem Traced.win
    {c : Tsm}
    (h : Traced pre cur c) (segAck : U32) :
    Traced pre cur (tsmCleanupRetransQueu c segAck) := by
  simp only [tsmCleanupRetransQueu]
  split
  · exact h
  · split
    · exact h
    · have hclean : Traced pre cur
          (c.onTcb (cleanedTcb · segAck (segDIFF segAck c.tcb.snd.una))) :=
        h.onTcb rfl rfl
      split
      · exact hclean.notif _
      · exact hclean

theorem Traced.arrived
    {c : Tsm}
    (h : Traced pre cur c) (pcb : Pcb) (finSent : Bool) :
    Traced pre cur (ackArrived pcb finSent c) :=
  ackArrived_elim (P := Traced pre cur) h (fun _ _ _ => h.win _) fun _ _ _ => h.win _

theorem ackArrived_state
    (pcb : Pcb) (finSent : Bool) (c : Tsm) :
    (ackArrived pcb finSent c).tcb.state = c.tcb.state := by
  have hclean : ∀ a, (tsmCleanupRetransQueu c a).tcb.state = c.tcb.state := by
    intro a
    simp only [tsmCleanupRetransQueu]
    repeat' split
    all_goals rfl
  exact ackArrived_elim (P := fun c' => c'.tcb.state = c.tcb.state) rfl
    (fun _ _ _ => hclean _) fun _ _ _ => hclean _

theorem acked_state
    (pcb : Pcb) (finSent : Bool) (c : Tsm) :
    (acked pcb finSent c).tcb.state = c.tcb.state := by
  rw [← ackArrived_state pcb finSent c, acked, onTcb_tcb]
  unfold updateSndWnd
  split <;> rfl

theorem Traced.acked
    {c : Tsm}
    (h : Traced pre cur c) (pcb : Pcb) (finSent : Bool) :
    Traced pre cur (acked pcb finSent c) := by
  refine (h.arrived pcb finSent).onTcb ?_ ?_
  · unfold updateSndWnd
    split <;> rfl
  · unfold updateSndWnd
    split <;> rfl

/-- Receiving text in a state where the application may close. -/
theorem Traced.text
    {env : TsmEnv} {pcb : Pcb} {c c' : Tsm} {s : TcpState}
    (h : Traced pre cur c)
    (hstate : c.tcb.state = s)
    (hs : s = .established ∨ s = .synRecv)
    (hdone : TextDone env pcb c c') :
    Traced pre cur c' ∧ (c'.tcb.state = s ∨ c'.tcb.state = .finWaitI) := by
  rw [← hstate] at hs
  rcases hdone.of_open hs with hquiet | ⟨-, c₁, hbefore, hafter⟩
  · exact ⟨h.quiet hquiet, Or.inl (hquiet.same.state.trans hstate)⟩
  · have hnotif := (h.quiet hbefore).notif .sessClosing
    have hs₁ : (c₁.tcpNotif .sessClosing).tcb.state = c.tcb.state := hbefore.same.state
    have hfin : Traced pre cur
        (TcpStateMachine.enterFinWaitI env.cfg (c₁.tcpNotif .sessClosing)) := by
      refine hnotif.enterFinWaitI ?_ ?_
      · rw [hs₁]
        rcases hs with hs | hs <;> simp [Between, hs]
      · rw [hs₁]
        rcases hs with hs | hs <;> simp [hs]
    exact ⟨hfin.quiet hafter, Or.inr (hafter.same.state.trans (enterFinWaitI_state _ _))⟩

theorem synRecv_traced
    {pcb : Pcb} {c : Tsm}
    (env : TsmEnv)
    (h : Traced pre cur c)
    (hstate : c.tcb.state = .synRecv)
    (huna : c.tcb.snd.una = c.tcb.snd.iss)
    (hnxt : c.tcb.snd.nxt = c.tcb.snd.iss + 1) :
    Traced pre cur (synRecvSegment env pcb c) := by
  refine synRecvSegment_elim (P := Traced pre cur) huna hnxt (fun c' hq => h.quiet hq) ?_ ?_
  · intro c' hq
    have hs := hq.same.state.trans hstate
    exact (h.quiet hq).notifyAndClose (by simp [hs]) (by simp [hs])
  · intro hreach c₀ hc₀ c' hdone
    have hwnd : Traced pre cur (c₀.onTcb (setSndWnd pcb)) := by
      rcases hc₀ with ⟨-, rfl⟩ | ⟨-, rfl⟩
      · exact h.onTcb rfl rfl
      · have hinc : Traced pre cur (incUna c) := h.onTcb rfl rfl
        exact hinc.onTcb rfl rfl
    have hs₀ : (c₀.onTcb (setSndWnd pcb)).tcb.state = .synRecv := by
      rcases hc₀ with ⟨-, rfl⟩ | ⟨-, rfl⟩ <;> exact hstate
    obtain ⟨htext, hs'⟩ := hwnd.text hs₀ (Or.inr rfl) hdone
    have hbetween : Between c'.tcb.state := by
      rcases hs' with hs' | hs' <;> simp [Between, hs']
    refine ⟨fun _ => ?_, fun _ => ?_⟩
    · refine (htext.onTcb rfl rfl).setState hbetween.1 hbetween.2.1 ?_ (by simp)
      rcases hs' with hs' | hs' <;> simp [tcpTimerRtoCancel, hs']
    · exact (htext.notif _).enterCloseWait hbetween

theorem estab_traced
    {pcb : Pcb} {c : Tsm}
    (env : TsmEnv)
    (h : Traced pre cur c)
    (hstate : c.tcb.state = .established) :
    Traced pre cur (estabSegment env pcb c) := by
  have hacked := h.acked pcb false
  have hs₀ := (acked_state pcb false c).trans hstate
  refine estabSegment_elim (P := Traced pre cur) (fun c' hq => h.quiet hq) ?_
    (fun _ => h.arrived pcb false) ?_ ?_
  · intro c' hq
    have hs := hq.same.state.trans hstate
    exact (h.quiet hq).notifyAndClose (by simp [hs]) (by simp [hs])
  · rintro - c' hdone
    exact (hacked.text hs₀ (Or.inl rfl) hdone).1
  · rintro - - c' hdone
    obtain ⟨htext, hs'⟩ := hacked.text hs₀ (Or.inl rfl) hdone
    refine (htext.notif _).enterCloseWait ?_
    rcases hs' with hs' | hs' <;> simp [Between, hs']

theorem finWaitI_traced
    {pcb : Pcb} {c : Tsm}
    (env : TsmEnv)
    (h : Traced pre cur c)
    (hstate : c.tcb.state = .finWaitI) :
    Traced pre cur (finWaitISegment env pcb c) := by
  have hacked := h.acked pcb true
  have hs₀ := (acked_state pcb true c).trans hstate
  have hours : Traced pre cur (incUna (acked pcb true c)) := hacked.onTcb rfl rfl
  refine finWaitISegment_elim (P := Traced pre cur) hs₀ (fun c' hq => h.quiet hq) ?_
    (fun _ => h.arrived pcb true) ?_ ?_ ?_ ?_ ?_
  · intro c' hq
    have hs := hq.same.state.trans hstate
    have hcancel : Traced pre cur (c.onTcb tcpTimerSlowCancel) := h.onTcb rfl rfl
    exact (hcancel.quiet hq).enterClosed (by simp [hs]) (by simp [hs])
  · rintro - - c' hq
    exact hacked.quiet hq
  · rintro - - - c' hq
    have hs := hq.same.state.trans hs₀
    have hcancel : Traced pre cur (c'.onTcb tcpTimerSlowCancel) := (hacked.quiet hq).onTcb rfl rfl
    exact (hcancel.setState (by simp [tcpTimerSlowCancel, hs]) (by simp [tcpTimerSlowCancel, hs])
      (by simp [tcpTimerSlowCancel, hs]) (by simp)).schedule
  · rintro - - - c' hq
    exact hours.quiet hq
  · rintro - - c' hq
    have hs : c'.tcb.state = .finWaitI := hq.same.state.trans hs₀
    have hcancel : Traced pre cur (c'.onTcb tcpTimerSlowCancel) := (hours.quiet hq).onTcb rfl rfl
    exact (hcancel.setState (by simp [tcpTimerSlowCancel, hs]) (by simp [tcpTimerSlowCancel, hs])
      (by simp [tcpTimerSlowCancel, hs]) (by simp)).slowSet _
  · rintro - - c' hq
    have hs : c'.tcb.state = .finWaitI := hq.same.state.trans hs₀
    have hcancel : Traced pre cur (c'.onTcb tcpTimerSlowCancel) := (hours.quiet hq).onTcb rfl rfl
    exact hcancel.enterTimeWait (by simp [Between, tcpTimerSlowCancel, hs])
      (by simp [tcpTimerSlowCancel, hs])

theorem finWaitII_traced
    {pcb : Pcb} {c : Tsm}
    (env : TsmEnv)
    (h : Traced pre cur c)
    (hstate : c.tcb.state = .finWaitII) :
    Traced pre cur (finWaitIISegment env pcb c) := by
  have hacked := h.acked pcb false
  have hs₀ := (acked_state pcb false c).trans hstate
  refine finWaitIISegment_elim (P := Traced pre cur) hs₀ (fun c' hq => h.quiet hq) ?_
    (fun _ => h.arrived pcb false) ?_ ?_
  · intro c' hq
    have hs := hq.same.state.trans hstate
    have hcancel : Traced pre cur (c.onTcb tcpTimerSlowCancel) := h.onTcb rfl rfl
    exact (hcancel.quiet hq).enterClosed (by simp [hs]) (by simp [hs])
  · rintro - c' hq
    exact hacked.quiet hq
  · rintro - c' hq c'' hq'
    have hs : c''.tcb.state = .finWaitII := hq'.same.state.trans (hq.same.state.trans hs₀)
    have hcancel : Traced pre cur (c'.onTcb tcpTimerSlowCancel) := (hacked.quiet hq).onTcb rfl rfl
    exact (hcancel.quiet hq').enterTimeWait (by simp [Between, hs]) (by simp [hs])

theorem lastAck_traced
    {pcb : Pcb} {c : Tsm}
    (h : Traced pre cur c)
    (hstate : c.tcb.state = .lastAck) :
    Traced pre cur (lastAckSegment pcb c) := by
  refine lastAckSegment_elim (P := Traced pre cur) (fun c' hq => h.quiet hq) ?_
  intro c' hq
  have hs := hq.same.state.trans hstate
  exact (h.quiet hq).enterClosed (by simp [hs]) (by simp [hs])

theorem closing_traced
    {pcb : Pcb} {c : Tsm}
    (env : TsmEnv)
    (h : Traced pre cur c)
    (hstate : c.tcb.state = .closing) :
    Traced pre cur (closingSegment env pcb c) := by
  have hacked := h.acked pcb true
  have hs₀ := (acked_state pcb true c).trans hstate
  refine closingSegment_elim (P := Traced pre cur) (fun c' hq => h.quiet hq) ?_
    (fun _ => h.arrived pcb true) (fun _ _ => hacked) ?_
  · intro c' hq
    have hs := hq.same.state.trans hstate
    exact (h.quiet hq).enterClosed (by simp [hs]) (by simp [hs])
  · rintro - -
    have hcancel : Traced pre cur ((acked pcb true c).onTcb tcpTimerRtoCancel) :=
      hacked.onTcb rfl rfl
    exact hcancel.enterTimeWait (by simp [Between, tcpTimerRtoCancel, hs₀])
      (by simp [tcpTimerRtoCancel, hs₀])

theorem timeWait_traced
    {pcb : Pcb} {c : Tsm}
    (env : TsmEnv)
    (h : Traced pre cur c)
    (hstate : c.tcb.state = .timeWait) :
    Traced pre cur (timeWaitSegment env pcb c) := by
  refine timeWaitSegment_elim (P := Traced pre cur) (fun c' hq => h.quiet hq) ?_ ?_
  · intro c' hq
    have hs := hq.same.state.trans hstate
    exact (h.quiet hq).enterClosed (by simp [hs]) (by simp [hs])
  · intro c' hq
    exact ((h.quiet hq).onTcb (f := tcpTimerSlowCancel) rfl rfl).slowSet _

end Segments

section Steps

variable {cfg : TcpConfig} {tcb : Tcb} {i : ConnInput}

/--
A listening control block is closed, or the delivery callback closes the connection while the
data of a SYN-ACK is handed to it.
-/
def LeavesPath (tcb : Tcb) (i : ConnInput) : Prop :=
  match i.event with
  | .close => tcb.state = .listen
  | .segment pcb =>
      tcb.state = .synSent ∧ SynAckArrives tcb pcb ∧
        textAsksClose i.answer pcb (synAckText pcb (Tsm.start tcb)).tcb = true
  | .open _ | .accept _ | .send _ | .rtoTimer | .slowTimer | .purge => False

instance (tcb : Tcb) (i : ConnInput) : Decidable (LeavesPath tcb i) := by
  unfold LeavesPath
  exact match i.event with
    | .close | .segment _ => inferInstance
    | .open _ | .accept _ | .send _ | .rtoTimer | .slowTimer | .purge => inferInstance

theorem synSent_traced
    {pcb : Pcb} {c : Tsm} {pre : List TcpOutput} {cur : TcpState}
    (env : TsmEnv)
    (h : Traced pre cur c)
    (hstate : c.tcb.state = .synSent)
    (huna : c.tcb.snd.una = c.tcb.snd.iss)
    (hnxt : c.tcb.snd.nxt = c.tcb.snd.iss + 1) :
    Traced pre cur (synSentSegment env pcb c) ∨
      ((synSentSegment env pcb c).tcb.inHtable = false ∧ SynAckArrives c.tcb pcb ∧
        textAsksClose env.answer pcb (synAckText pcb c).tcb = true) := by
  refine synSentSegment_text_elim
    (P := fun c' => Traced pre cur c' ∨ (c'.tcb.inHtable = false ∧ SynAckArrives c.tcb pcb ∧
      textAsksClose env.answer pcb (synAckText pcb c).tcb = true)) huna hnxt
    (fun c' hq => Or.inl (h.quiet hq)) ?_ ?_ ?_
  · intro c' hq
    have hs := hq.same.state.trans hstate
    exact Or.inl ((h.quiet hq).notifyAndClose (by simp [hs]) (by simp [hs]))
  · rintro - c' hq
    have hs := hq.same.state.trans hstate
    exact Or.inl (((h.quiet hq).setState (by simp [hs]) (by simp [hs]) (by simp [hs])
      (by simp)).notif _).schedule
  · intro harrives c₂ hq₂
    have hsyn : Traced pre cur (c.onTcb (synReceived pcb)) := h.onTcb rfl rfl
    have hinc : Traced pre cur (incUna (c.onTcb (synReceived pcb))) := hsyn.onTcb rfl rfl
    have hwnd : Traced pre cur ((incUna (c.onTcb (synReceived pcb))).onTcb (setSndWnd pcb)) :=
      hinc.onTcb rfl rfl
    have htext : Traced pre cur (synAckText pcb c) := hwnd.notif _
    have hs : (synAckText pcb c).tcb.state = .synSent := hstate
    cases hasks : textAsksClose env.answer pcb (synAckText pcb c).tcb with
    | false =>
        have hquiet := receiveText_quiet hasks
        have hs₁ := hquiet.same.state.trans hs
        have hcancel : Traced pre cur
            ((receiveText env pcb (synAckText pcb c)).onTcb tcpTimerRtoCancel) :=
          (htext.quiet hquiet).onTcb rfl rfl
        exact Or.inl ((hcancel.setState (by simp [tcpTimerRtoCancel, hs₁])
          (by simp [tcpTimerRtoCancel, hs₁]) (by simp [tcpTimerRtoCancel, hs₁])
          (by simp)).quiet hq₂)
    | true =>
        -- the closed control block enters `TS_ESTABLISHED`
        obtain ⟨c₁, hquiet, hclosed⟩ := receiveText_asks hasks
        have hs₁ := hquiet.same.state.trans hs
        have hclose : tsmClose env.cfg c₁ = notifyAndClose c₁ := by
          simp only [tsmClose, hs₁]
        have hdead := tcpSilentClose_dead
          ((setState .closed (c₁.tcpNotif .sessClosing)).tcpNotif .sessClosed)
        rw [hclose] at hclosed
        exact Or.inr ⟨hq₂.same.inHtable.trans (hclosed.same.inHtable.trans hdead.1), harrives,
          rfl⟩

theorem tsmClose_traced
    {c : Tsm} {pre : List TcpOutput} {cur : TcpState}
    (h : Traced pre cur c)
    (hlisten : c.tcb.state ≠ .listen)
    (hrest : c.tcb.state ≠ .init ∧ c.tcb.state ≠ .closeWait ∧ c.tcb.state ≠ .closed) :
    Traced pre cur (tsmClose cfg c) := by
  have hfail : Traced pre cur (c.fail .enotconn) := h.keep rfl rfl ⟨[], by simp, rfl⟩
  have hnotif := h.notif .sessClosing
  unfold tsmClose
  cases hs : c.tcb.state with
  | init =>
      exact absurd hs hrest.1
  | listen =>
      exact absurd hs hlisten
  | synSent =>
      exact h.notifyAndClose (by simp [hs]) (by simp [hs])
  | synRecv | established =>
      exact hnotif.enterFinWaitI (by simp [Between, hs]) (by simp [hs])
  | closeWait =>
      exact h
  | finWaitI | finWaitII | lastAck | closing | timeWait | closed =>
      exact hfail

/-- A timer that closes the connection, or sends something again. -/
theorem Traced.retrans
    {env : TsmEnv} {c : Tsm} {pre : List TcpOutput} {cur : TcpState} {limit : BitVec 8}
    {giveUp resend : Tsm → Tsm}
    (hgive : Traced pre cur (giveUp c))
    (hresend : Traced pre cur (resend c)) :
    Traced pre cur (retransOrClose env limit giveUp resend c) := by
  unfold retransOrClose
  split
  · exact hgive
  · exact hresend.schedule

theorem notifyWinUnavail_traced
    {c : Tsm} {pre : List TcpOutput} {cur : TcpState}
    (h : Traced pre cur c) (full : Bool) :
    Traced pre cur (notifyWinUnavail full c) := by
  unfold notifyWinUnavail
  split
  · exact h.notif _
  · exact h

/-- Data segments enter no state. -/
theorem sentSegs_out
    (c : Tsm) (flags : TcpFlags) (sseq : U32) (bytes : List UInt8) (ns : List Nat) :
    ∃ o, (sentSegs c flags sseq bytes ns).out = c.out ++ o ∧ enters o = [] := by
  refine ⟨_, rfl, ?_⟩
  induction segPkts c.tcb.rcv flags sseq bytes ns with
  | nil =>
      rfl
  | cons p ps ih =>
      exact ih

theorem sentSegs_traced
    {c : Tsm} {pre : List TcpOutput} {cur : TcpState}
    (h : Traced pre cur c) (flags : TcpFlags) (sseq : U32) (bytes : List UInt8)
    (ns : List Nat) :
    Traced pre cur (sentSegs c flags sseq bytes ns) :=
  h.keep rfl rfl (sentSegs_out c flags sseq bytes ns)

theorem tsmSend_traced
    {c : Tsm} {pre : List TcpOutput} {cur : TcpState} {data : TsmDataArg}
    {k : Nat}
    (env : TsmEnv)
    (h : Traced pre cur c)
    (hcfg : ConfigOk env.cfg)
    (hqueue : QueueFlight env.cfg k c.tcb)
    (hdata : SendChainOk c.tcb data.tdaMbuf) :
    Traced pre cur (tsmSend env c data) := by
  have hfail : Traced pre cur (c.fail .enotconn) := h.keep rfl rfl ⟨[], by simp, rfl⟩
  have hsend : Traced pre cur (tcpDataSend env c data) := by
    obtain ⟨hstate, hlive⟩ := tcpDataSend_state hcfg.mtu hqueue.queue hdata
    refine h.keep hstate hlive ?_
    rcases tcpDataSend_spec hcfg.mtu hqueue.queue hdata with heq | ⟨tcb', ns, hsent⟩
    · exact ⟨[], by rw [heq, List.append_nil]; rfl, rfl⟩
    · obtain ⟨o, ho, hnone⟩ := sentSegs_out { c with tcb := tcb' } (sendFlags data)
        tcb'.snd.nxt ((queued tcb').drop (flight tcb')) ns
      exact ⟨o, by rw [hsent.result]; exact ho, hnone⟩
  unfold tsmSend
  split
  · exact notifyWinUnavail_traced hsend.schedule _
  · exact notifyWinUnavail_traced hsend.schedule _
  all_goals exact hfail

theorem tsmRetransData_traced
    {env : TsmEnv} {c : Tsm} {pre : List TcpOutput} {cur : TcpState} {k : Nat}
    (h : Traced pre cur c)
    (hcfg : ConfigOk env.cfg)
    (hqueue : QueueFlight env.cfg k c.tcb) :
    Traced pre cur (tsmRetransData env c) := by
  have hw := hcfg.winSize
  obtain ⟨heq, -⟩ := tcpDataRetrans_spec env hcfg.mtu hqueue.queue (by omega)
  refine notifyWinUnavail_traced ?_ _
  rw [heq]
  exact sentSegs_traced h _ _ _ _

theorem rtoTimer_traced
    {c : Tsm} {pre : List TcpOutput} {cur : TcpState} {k : Nat}
    (env : TsmEnv)
    (h : Traced pre cur c)
    (hcfg : ConfigOk env.cfg)
    (hqueue : QueueFlight env.cfg k c.tcb)
    (hrest : c.tcb.state ≠ .init ∧ c.tcb.state ≠ .closeWait ∧ c.tcb.state ≠ .closed) :
    Traced pre cur (tcpHandleRetransTo env c) := by
  have hfired : Traced pre cur
      (c.onTcb fun tcb => { tcb with onRtoList := false, retransCnt := tcb.retransCnt + 1 }) :=
    h.onTcb rfl rfl
  unfold tcpHandleRetransTo tsmRetransmissionTimeout
  cases hs : c.tcb.state with
  | closeWait =>
      exact absurd hs hrest.2.1
  | synSent | synRecv =>
      simp only [onTcb_tcb, hs]
      exact Traced.retrans (hfired.notifyAndClose (by simp [hs]) (by simp [hs])) (hfired.pkt _ _)
  | established =>
      simp only [onTcb_tcb, hs]
      exact Traced.retrans (hfired.notifyAndClose (by simp [hs]) (by simp [hs]))
        (tsmRetransData_traced hfired hcfg (hqueue.of_eq rfl rfl rfl))
  | finWaitI =>
      simp only [onTcb_tcb, hs]
      have hcancel := hfired.onTcb (f := tcpTimerSlowCancel) rfl rfl
      exact Traced.retrans (hcancel.enterClosed (by simp [tcpTimerSlowCancel, hs])
        (by simp [tcpTimerSlowCancel, hs])) (hfired.pkt _ _)
  | lastAck | closing =>
      simp only [onTcb_tcb, hs]
      exact Traced.retrans (hfired.enterClosed (by simp [hs]) (by simp [hs])) (hfired.pkt _ _)
  | init | listen | finWaitII | timeWait | closed =>
      simpa only [onTcb_tcb, hs] using hfired

theorem slowTimer_traced
    {env : TsmEnv} {c : Tsm} {pre : List TcpOutput} {cur : TcpState}
    (h : Traced pre cur c) :
    Traced pre cur (tcpHandleSlowTo env c) := by
  have hfired : Traced pre cur (c.onTcb fun tcb => { tcb with onSlowList := false }) :=
    h.onTcb rfl rfl
  have hclose : ∀ s, s ≠ .listen → s ≠ .closed →
      Traced pre cur (closeIn s (c.onTcb fun tcb => { tcb with onSlowList := false })) := by
    intro s hlisten hclosed
    unfold closeIn
    split
    · rename_i hs
      exact hfired.enterClosed (hs ▸ hlisten) (hs ▸ hclosed)
    · exact hfired
  unfold tcpHandleSlowTo
  simp only
  split
  · exact hclose _ (by simp) (by simp)
  · exact hclose _ (by simp) (by simp)
  · exact hclose _ (by simp) (by simp)
  all_goals exact hfired

/-- The events that a live control block goes on with. -/
def goesOn : ConnEvent → Bool
  | .open _ | .accept _ | .purge => false
  | .send _ | .close | .segment _ | .rtoTimer | .slowTimer => true

/-- An event that a control block goes on with finds it alive. -/
theorem live_of_goesOn
    (hinv : SendInv cfg anySlack tcb)
    (hlegal : ConnLegal tcb i)
    (hgoes : goesOn i.event = true) :
    tcb.inHtable = true := by
  unfold ConnLegal at hlegal
  cases hevent : i.event with
  | «open» active | accept syn | purge =>
      simp [goesOn, hevent] at hgoes
  | send data =>
      simp only [hevent] at hlegal
      exact hlegal.1
  | close | segment pcb =>
      simpa only [hevent] using hlegal
  | rtoTimer =>
      simp only [hevent] at hlegal
      exact hinv.live_of_timer (Or.inl hlegal)
  | slowTimer =>
      simp only [hevent] at hlegal
      exact hinv.live_of_timer (Or.inr hlegal)

/-- A transition of a live control block follows a path, unless it ends its life off the path. -/
theorem connStep_traced
    (hcfg : ConfigOk cfg)
    (hinv : SendInv cfg anySlack tcb)
    (hlegal : ConnLegal tcb i)
    (hgoes : goesOn i.event = true) :
    Traced [] tcb.state (connStep cfg tcb i) ∨
      ((connStep cfg tcb i).tcb.inHtable = false ∧ LeavesPath tcb i) := by
  have hlive := live_of_goesOn hinv hlegal hgoes
  have hrest := hinv.resting hlive
  have hbound := hinv.bound hlive
  have h : Traced [] tcb.state (Tsm.start tcb) := Traced.start hlive hrest.2.2
  unfold connStep
  cases hevent : i.event with
  | «open» active | accept syn | purge =>
      simp [goesOn, hevent] at hgoes
  | send data =>
      simp only [ConnLegal, hevent] at hlegal
      exact Or.inl (tsmSend_traced (i.env cfg) h hcfg hbound hlegal.2)
  | close =>
      by_cases hlisten : tcb.state = .listen
      · refine Or.inr ⟨?_, ?_⟩
        · simp only [tsmClose, Tsm.start, hlisten]
          exact (tcpSilentClose_dead _).1
        · simpa only [LeavesPath, hevent] using hlisten
      · exact Or.inl (tsmClose_traced h hlisten hrest)
  | rtoTimer =>
      exact Or.inl (rtoTimer_traced (i.env cfg) h hcfg hbound hrest)
  | slowTimer =>
      exact Or.inl (slowTimer_traced h)
  | segment pcb =>
      simp only [LeavesPath, hevent]
      unfold tsmSegmentArrives
      cases hs : tcb.state with
      | init =>
          exact absurd hs hrest.1
      | closeWait =>
          exact absurd hs hrest.2.1
      | closed =>
          exact absurd hs hrest.2.2
      | listen =>
          simp only [Tsm.start, hs]
          rw [hs] at h
          exact Or.inl (listenSegment_elim (P := Traced [] .listen) fun c' hq => h.quiet hq)
      | synSent =>
          obtain ⟨huna, hnxt, -⟩ := hinv.handshake hlive (Or.inl hs)
          rw [hs] at h
          simp only [Tsm.start, hs, true_and]
          exact synSent_traced (i.env cfg) h hs huna hnxt
      | synRecv =>
          obtain ⟨huna, hnxt, -⟩ := hinv.handshake hlive (Or.inr hs)
          rw [hs] at h
          simp only [Tsm.start, hs]
          exact Or.inl (synRecv_traced (i.env cfg) h hs huna hnxt)
      | established =>
          rw [hs] at h
          simp only [Tsm.start, hs]
          exact Or.inl (estab_traced (i.env cfg) h hs)
      | finWaitI =>
          rw [hs] at h
          simp only [Tsm.start, hs]
          exact Or.inl (finWaitI_traced (i.env cfg) h hs)
      | finWaitII =>
          rw [hs] at h
          simp only [Tsm.start, hs]
          exact Or.inl (finWaitII_traced (i.env cfg) h hs)
      | lastAck =>
          rw [hs] at h
          simp only [Tsm.start, hs]
          exact Or.inl (lastAck_traced h hs)
      | closing =>
          rw [hs] at h
          simp only [Tsm.start, hs]
          exact Or.inl (closing_traced (i.env cfg) h hs)
      | timeWait =>
          rw [hs] at h
          simp only [Tsm.start, hs]
          exact Or.inl (timeWait_traced (i.env cfg) h hs)

end Steps

end StateTraces
end Warp17
