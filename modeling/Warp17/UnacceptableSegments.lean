import Warp17.ConnectionRuns

/-!
# Unacceptable segments

A segment that a state does not accept must not change the connection: it is dropped, or
answered with one ACK or one RST.  In the synchronized states that is a segment outside the
receive window; in `TS_SYN_SENT`, where nothing was received yet, it is one whose ACK is not
for our SYN, and a RST that does not acknowledge our SYN.

`tsm_SF_syn_sent` looks at the RST bit without asking whether there was an ACK, so a RST
without one closes the connection.

**Results**
- `segmentPrologue_unacceptable`: the check in front of all the synchronized states.
- `unacceptable_unchanged_iff`: the only exception is that RST.
-/

namespace Warp17
namespace UnacceptableSegments

open SequenceComparison ControlBlock SendQueue TcpStateMachine TransitionPaths ConnectionRuns

/-- The states in which the numbers of the peer are known. -/
def Synchronized (s : TcpState) : Prop :=
  s = .synRecv ∨ s = .established ∨ s = .finWaitI ∨ s = .finWaitII ∨ s = .closeWait ∨
    s = .closing ∨ s = .lastAck ∨ s = .timeWait

/-- The segment acknowledges our SYN, and nothing that was not sent. -/
def AckOfSyn (tcb : Tcb) (pcb : Pcb) : Prop :=
  pcb.flags.ack = true ∧ segLE pcb.recvAck tcb.snd.iss = false ∧
    segGT pcb.recvAck tcb.snd.nxt = false

/-- A segment that is not acceptable in the state of the control block. -/
def Unacceptable (tcb : Tcb) (pcb : Pcb) : Prop :=
  (tcb.state = .synSent ∧
      (pcb.flags.ack = true ∨ pcb.flags.rst = true) ∧ ¬ AckOfSyn tcb pcb) ∨
    (Synchronized tcb.state ∧ tsmDoReceiveAcceptanceTest tcb pcb.l5Len pcb.sentSeq = false)

/-- The packet carries nothing but an ACK, or a RST. -/
def AckOrRst (p : TxPkt) : Prop :=
  p.data = [] ∧ (p.flags = { ack := true } ∨ p.flags = { ack := true, rst := true })

/-- The control block is as it was, nothing is delivered, at most one packet is sent. -/
structure LeavesUnchanged (tcb : Tcb) (c : Tsm) : Prop where
  tcb : c.tcb = tcb
  out : c.out = [] ∨ ∃ p, AckOrRst p ∧ c.out = [.pkt p]

theorem leavesUnchanged_start
    (tcb : Tcb) :
    LeavesUnchanged tcb (Tsm.start tcb) :=
  ⟨rfl, Or.inl rfl⟩

theorem leavesUnchanged_ack
    (tcb : Tcb) :
    LeavesUnchanged tcb (Tsm.start tcb).tcpSendAckPkt :=
  ⟨rfl, Or.inr ⟨_, ⟨rfl, Or.inl rfl⟩, rfl⟩⟩

theorem leavesUnchanged_rst
    (tcb : Tcb) :
    LeavesUnchanged tcb ((Tsm.start tcb).tcpSendCtrlPkt { ack := true, rst := true }) :=
  ⟨rfl, Or.inr ⟨_, ⟨rfl, Or.inr rfl⟩, rfl⟩⟩

/-- A segment outside the window is answered with an ACK, or dropped when it is a RST. -/
theorem segmentPrologue_unacceptable
    {tcb : Tcb} {pcb : Pcb} {onRst onSyn onAck : Tsm → Tsm}
    (hreject : tsmDoReceiveAcceptanceTest tcb pcb.l5Len pcb.sentSeq = false) :
    LeavesUnchanged tcb (segmentPrologue pcb onRst onSyn onAck (Tsm.start tcb)) := by
  have hreject' : tsmDoReceiveAcceptanceTest (Tsm.start tcb).tcb pcb.l5Len pcb.sentSeq = false :=
    hreject
  rw [segmentPrologue, hreject', Bool.not_false, if_pos rfl]
  split
  · exact leavesUnchanged_start tcb
  · exact leavesUnchanged_ack tcb

theorem timeWaitSegment_unacceptable
    {env : TsmEnv} {tcb : Tcb} {pcb : Pcb}
    (hreject : tsmDoReceiveAcceptanceTest tcb pcb.l5Len pcb.sentSeq = false) :
    LeavesUnchanged tcb (timeWaitSegment env pcb (Tsm.start tcb)) := by
  have hreject' : tsmDoReceiveAcceptanceTest (Tsm.start tcb).tcb pcb.l5Len pcb.sentSeq = false :=
    hreject
  rw [timeWaitSegment, hreject', Bool.not_false, if_pos rfl]
  split
  · exact leavesUnchanged_start tcb
  · exact leavesUnchanged_ack tcb

theorem synchronized_unchanged
    {tcb : Tcb} {pcb : Pcb}
    (env : TsmEnv)
    (hsync : Synchronized tcb.state)
    (hreject : tsmDoReceiveAcceptanceTest tcb pcb.l5Len pcb.sentSeq = false) :
    LeavesUnchanged tcb (tsmSegmentArrives env pcb (Tsm.start tcb)) := by
  unfold tsmSegmentArrives
  cases hstate : tcb.state with
  | synRecv | established | finWaitI | finWaitII | closeWait | closing | lastAck =>
      simp only [Tsm.start, hstate]
      exact segmentPrologue_unacceptable hreject
  | timeWait =>
      simp only [Tsm.start, hstate]
      exact timeWaitSegment_unacceptable hreject
  | init | listen | synSent | closed =>
      simp [Synchronized, hstate] at hsync

/-- In `TS_SYN_SENT` an ACK of anything but our SYN is answered with a RST, or dropped. -/
theorem synSent_badAck
    {tcb : Tcb} {pcb : Pcb}
    (env : TsmEnv)
    (hflag : pcb.flags.ack = true)
    (hbad : ¬ AckOfSyn tcb pcb) :
    LeavesUnchanged tcb (synSentSegment env pcb (Tsm.start tcb)) := by
  have hreject : (segLE pcb.recvAck tcb.snd.iss || segGT pcb.recvAck tcb.snd.nxt) = true := by
    by_contra hno
    rw [Bool.or_eq_true, not_or, Bool.not_eq_true, Bool.not_eq_true] at hno
    exact hbad ⟨hflag, hno.1, hno.2⟩
  have hcond : (pcb.flags.ack && (segLE pcb.recvAck (Tsm.start tcb).tcb.snd.iss ||
      segGT pcb.recvAck (Tsm.start tcb).tcb.snd.nxt)) = true := by
    rw [hflag, Bool.true_and]
    exact hreject
  rw [synSentSegment, if_pos hcond]
  split
  · exact leavesUnchanged_start tcb
  · exact leavesUnchanged_rst tcb

/-- A RST without an ACK closes the connection in `TS_SYN_SENT`. -/
theorem synSent_bareRst
    {tcb : Tcb} {pcb : Pcb}
    (env : TsmEnv)
    (hrst : pcb.flags.rst = true)
    (hack : pcb.flags.ack = false) :
    synSentSegment env pcb (Tsm.start tcb) = notifyAndClose (rstReceived (Tsm.start tcb)) := by
  simp only [synSentSegment, hack, hrst, Bool.false_and, Bool.false_eq_true, if_false, if_true]

theorem closed_not_unchanged
    {tcb : Tcb} (c : Tsm)
    (hstate : tcb.state = .synSent) :
    ¬ LeavesUnchanged tcb (notifyAndClose c) := by
  intro h
  have hclosed : (notifyAndClose c).tcb.state = .closed := by
    unfold notifyAndClose enterClosed tcpSilentClose
    simp only
    split <;> rfl
  rw [h.tcb, hstate] at hclosed
  cases hclosed

/--
A segment that is not acceptable leaves the control block as it was, unless it is a RST
without an ACK in `TS_SYN_SENT`.
-/
theorem unacceptable_unchanged_iff
    (env : TsmEnv) (tcb : Tcb) (pcb : Pcb)
    (hbad : Unacceptable tcb pcb) :
    LeavesUnchanged tcb (tsmSegmentArrives env pcb (Tsm.start tcb)) ↔
      ¬ (tcb.state = .synSent ∧ pcb.flags.rst = true ∧ pcb.flags.ack = false) := by
  rcases hbad with ⟨hstate, hflags, hnot⟩ | ⟨hsync, hreject⟩
  · have hrun : tsmSegmentArrives env pcb (Tsm.start tcb) =
        synSentSegment env pcb (Tsm.start tcb) := by
      simp only [tsmSegmentArrives, Tsm.start, hstate]
    rw [hrun]
    cases hack : pcb.flags.ack with
    | true =>
        simp only [Bool.true_eq_false, and_false, not_false_eq_true, iff_true]
        exact synSent_badAck env hack hnot
    | false =>
        have hrst : pcb.flags.rst = true := by
          simpa [hack] using hflags
        rw [synSent_bareRst env hrst hack]
        simp only [hstate, hrst, and_self, not_true_eq_false, iff_false]
        exact closed_not_unchanged _ hstate
  · have hkept := synchronized_unchanged env hsync hreject
    constructor
    · rintro - ⟨hstate, -, -⟩
      simp [Synchronized, hstate] at hsync
    · exact fun _ => hkept

/-- A connection that has sent its SYN. -/
def synSentTcb : Tcb :=
  (connStep defaultConfig blankTcb (.plain (.open true))).tcb

/-- An old segment with an ACK of nothing that was sent. -/
theorem unacceptable_unchanged_iff_oldAck :
    LeavesUnchanged synSentTcb (tsmSegmentArrives ((ConnInput.plain .close).env defaultConfig)
        (plainPcb 100 77 { ack := true } []) (Tsm.start synSentTcb)) ↔
      ¬ (synSentTcb.state = .synSent ∧
        (plainPcb 100 77 { ack := true } []).flags.rst = true ∧
        (plainPcb 100 77 { ack := true } []).flags.ack = false) :=
  unacceptable_unchanged_iff _ synSentTcb _
    (Or.inl ⟨by decide, Or.inl rfl, fun h => absurd h.2.2 (by decide)⟩)

/-- A blind RST, without an ACK, kills a connection that waits for its SYN-ACK. -/
theorem bareRst_closes :
    Unacceptable synSentTcb (plainPcb 4711 0 { rst := true } []) ∧
    ¬ LeavesUnchanged synSentTcb
      (tsmSegmentArrives ((ConnInput.plain .close).env defaultConfig)
        (plainPcb 4711 0 { rst := true } []) (Tsm.start synSentTcb)) := by
  refine ⟨Or.inl ⟨by decide, Or.inr rfl, fun h => absurd h.1 (by decide)⟩, fun h => ?_⟩
  exact absurd h.tcb (by decide)

end UnacceptableSegments
end Warp17
