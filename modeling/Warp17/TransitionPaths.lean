import Warp17.TcpStateMachine
import Warp17.RetransmissionQueue

/-!
# Paths through the segment functions

A segment function goes through checks, the ACK processing, the segment text and the FIN bit,
and may leave at each of them.  What the receiving side does on the way has no influence on
the sending side, so the paths are described up to steps that keep the sending half of the
control block and that send neither data nor a FIN (`Quiet`).

**Results**
- `receiveText_done`, `receiveAndAck_done`: receiving text is quiet, or the application
  closes the connection in the middle of it.
- `synSentSegment_elim` to `timeWaitSegment_elim`: what holds at the end of every path of a
  segment function holds of the function.
-/

namespace Warp17
namespace TransitionPaths

open SequenceComparison MbufChains ControlBlock ReceiveBuffer SendQueue TcpStateMachine

section Quiet

/-- The state, the sending half and the timers of two control blocks agree. -/
structure SameSend (t t' : Tcb) : Prop where
  state : t'.state = t.state
  snd : t'.snd = t.snd
  retrans : t'.retrans = t.retrans
  active : t'.active = t.active
  onSlowList : t'.onSlowList = t.onSlowList
  onRtoList : t'.onRtoList = t.onRtoList
  retransCnt : t'.retransCnt = t.retransCnt
  inHtable : t'.inHtable = t.inHtable

theorem SameSend.refl
    (t : Tcb) :
    SameSend t t :=
  ⟨rfl, rfl, rfl, rfl, rfl, rfl, rfl, rfl⟩

theorem SameSend.trans
    {t t' t'' : Tcb}
    (h : SameSend t t')
    (h' : SameSend t' t'') :
    SameSend t t'' :=
  ⟨h'.state.trans h.state, h'.snd.trans h.snd, h'.retrans.trans h.retrans,
    h'.active.trans h.active, h'.onSlowList.trans h.onSlowList,
    h'.onRtoList.trans h.onRtoList, h'.retransCnt.trans h.retransCnt,
    h'.inHtable.trans h.inHtable⟩

/-- An effect that neither carries a sequence number of ours nor is seen by the test case. -/
def QuietOutput : TcpOutput → Prop
  | .pkt p => p.data = [] ∧ p.flags.fin = false
  | .deliver _ => True
  | .asserted => True
  | .missingSeq _ => True
  | .notif _ => False
  | .enter _ => False

/-- A part of a transition that only concerns the receiving side. -/
structure Quiet (c c' : Tsm) : Prop where
  same : SameSend c.tcb c'.tcb
  out : ∃ o, c'.out = c.out ++ o ∧ ∀ x ∈ o, QuietOutput x
  dataSent : c'.dataSent = c.dataSent

theorem Quiet.refl
    (c : Tsm) :
    Quiet c c :=
  ⟨SameSend.refl _, ⟨[], by simp, by simp⟩, rfl⟩

theorem Quiet.trans
    {c c' c'' : Tsm}
    (h : Quiet c c')
    (h' : Quiet c' c'') :
    Quiet c c'' := by
  obtain ⟨o, ho, hq⟩ := h.out
  obtain ⟨o', ho', hq'⟩ := h'.out
  refine ⟨h.same.trans h'.same, ⟨o ++ o', ?_, ?_⟩, h'.dataSent.trans h.dataSent⟩
  · rw [ho', ho, List.append_assoc]
  · intro x hx
    rcases List.mem_append.1 hx with hx | hx
    · exact hq x hx
    · exact hq' x hx

theorem quiet_emit
    {c : Tsm} {o : TcpOutput}
    (ho : QuietOutput o) :
    Quiet c (c.emit o) :=
  ⟨SameSend.refl _, ⟨[o], rfl, by simpa using ho⟩, rfl⟩

theorem quiet_onTcb
    {c : Tsm} {f : Tcb → Tcb}
    (hf : SameSend c.tcb (f c.tcb)) :
    Quiet c (c.onTcb f) :=
  ⟨hf, ⟨[], by simp, by simp⟩, rfl⟩

theorem quiet_ctrl
    (c : Tsm) (sseq : U32) {flags : TcpFlags}
    (hflags : flags.fin = false) :
    Quiet c (c.tcpSendCtrlPktWithSseq sseq flags) :=
  quiet_emit ⟨rfl, hflags⟩

theorem quiet_ack
    (c : Tsm) :
    Quiet c c.tcpSendAckPkt :=
  quiet_ctrl c _ rfl

theorem quiet_fail
    (c : Tsm) (e : Errno) :
    Quiet c (c.fail e) :=
  ⟨SameSend.refl _, ⟨[], by simp, by simp⟩, rfl⟩

theorem quiet_consumeFin
    (c : Tsm) :
    Quiet c (consumeFin c) :=
  quiet_onTcb ⟨rfl, rfl, rfl, rfl, rfl, rfl, rfl, rfl⟩

theorem quiet_rememberFin
    (pcb : Pcb) (c : Tsm) :
    Quiet c (rememberFin pcb c) :=
  quiet_onTcb ⟨rfl, rfl, rfl, rfl, rfl, rfl, rfl, rfl⟩

theorem quiet_rstReceived
    (c : Tsm) :
    Quiet c (rstReceived c) :=
  quiet_onTcb ⟨rfl, rfl, rfl, rfl, rfl, rfl, rfl, rfl⟩

theorem quiet_synReceived
    (pcb : Pcb) (c : Tsm) :
    Quiet c (c.onTcb (synReceived pcb)) :=
  quiet_onTcb ⟨rfl, rfl, rfl, rfl, rfl, rfl, rfl, rfl⟩

end Quiet

section TimerFields

/-- Scheduling a retransmission changes the timer and the retry counter only. -/
theorem tsmScheduleRetransmission_eq
    (cfg : TcpConfig) (tcb : Tcb) :
    tsmScheduleRetransmission cfg tcb =
      { tcb with
        onRtoList := (tsmScheduleRetransmission cfg tcb).onRtoList
        retransCnt := (tsmScheduleRetransmission cfg tcb).retransCnt } := by
  unfold tsmScheduleRetransmission tcpTimerRtoSet
  repeat' split
  all_goals rfl

/-- Setting the slow timer changes nothing else. -/
theorem tcpTimerSlowSet_eq
    (cfg : TcpConfig) (timeout : U32) (tcb : Tcb) :
    tcpTimerSlowSet cfg timeout tcb =
      { tcb with onSlowList := (tcpTimerSlowSet cfg timeout tcb).onSlowList } := by
  unfold tcpTimerSlowSet
  repeat' split
  all_goals rfl

theorem enterFinWaitI_state
    (cfg : TcpConfig) (c : Tsm) :
    (enterFinWaitI cfg c).tcb.state = .finWaitI := by
  rw [enterFinWaitI, onTcb_tcb, Function.comp_apply, tcpTimerSlowSet_eq,
    tsmScheduleRetransmission_eq]
  rfl

theorem enterCloseWait_state
    (cfg : TcpConfig) (c : Tsm) :
    (enterCloseWait cfg c).tcb.state = .lastAck := by
  rw [enterCloseWait, enterLastAck, onTcb_tcb, tsmScheduleRetransmission_eq]
  rfl

theorem enterClosing_state
    (cfg : TcpConfig) (c : Tsm) :
    (enterClosing cfg c).tcb.state = .closing := by
  rw [enterClosing, onTcb_tcb, tsmScheduleRetransmission_eq]
  rfl

theorem enterFinWaitII_state
    (cfg : TcpConfig) (c : Tsm) :
    (enterFinWaitII cfg c).tcb.state = .finWaitII := by
  rw [enterFinWaitII, onTcb_tcb, tcpTimerSlowSet_eq]
  rfl

end TimerFields

section Text

/-- The application asks to close while it is handed the text of the segment. -/
def textAsksClose (answer : DeliverCb) (pcb : Pcb) (tcb : Tcb) : Bool :=
  decide (pcb.l5Len ≠ 0) &&
    (tcpDataHandle (urgTcb pcb tcb) pcb.mbuf pcb.sentSeq pcb.l5Len answer).closeAsked

/-- The delivery callback of an application that leaves closing to others. -/
def NeverAsksClose (answer : DeliverCb) : Prop :=
  ∀ i bytes, answer i bytes ≠ .close

/-- `tcp_data_handle` changes `RCV.NXT` and the receive buffer only. -/
theorem tcpDataHandle_frame
    (tcb : Tcb) (mbuf : Chain) (segSeq segLen : U32) (answer : DeliverCb) :
    ∃ nxt buf,
      (tcpDataHandle tcb mbuf segSeq segLen answer).tcb =
        { tcb with rcv := { tcb.rcv with nxt := nxt }, rcvBuf := buf } := by
  have hdeliver : ∀ buf, ∃ nxt buf', (deliverData tcb buf answer).tcb =
      { tcb with rcv := { tcb.rcv with nxt := nxt }, rcvBuf := buf' } := by
    intro buf
    unfold deliverData
    split
    · exact ⟨tcb.rcv.nxt, tcb.rcvBuf, rfl⟩
    · exact ⟨_, _, rfl⟩
  have hstore : ∀ new, ∃ nxt buf', (storeSegment tcb new answer).tcb =
      { tcb with rcv := { tcb.rcv with nxt := nxt }, rcvBuf := buf' } := by
    intro new
    unfold storeSegment
    split
    · exact hdeliver _
    · exact hdeliver _
    · exact ⟨tcb.rcv.nxt, tcb.rcvBuf, rfl⟩
  unfold tcpDataHandle
  split
  · exact ⟨tcb.rcv.nxt, tcb.rcvBuf, rfl⟩
  · split
    · split
      · exact ⟨tcb.rcv.nxt, tcb.rcvBuf, rfl⟩
      · exact hstore _
    · exact hstore _

theorem deliverLoop_closeAsked
    {answer : DeliverCb}
    (hnever : NeverAsksClose answer)
    (i : Nat) (nxt : U32) (buf : List TcbBufHdr) :
    (deliverLoop answer i nxt buf).closeAsked = false := by
  induction buf generalizing i nxt with
  | nil =>
      rfl
  | cons seg rest ih =>
      unfold deliverLoop
      split
      · split
        · rename_i hanswer
          exact absurd hanswer (hnever i _)
        · split
          · exact ih _ _
          · rfl
      · rfl

theorem textAsksClose_of_never
    {answer : DeliverCb}
    (hnever : NeverAsksClose answer)
    (pcb : Pcb) (tcb : Tcb) :
    textAsksClose answer pcb tcb = false := by
  have hdeliver : ∀ tcb buf, (deliverData tcb buf answer).closeAsked = false := by
    intro tcb buf
    unfold deliverData
    split
    · rfl
    · exact deliverLoop_closeAsked hnever 0 _ _
  have hstore : ∀ tcb new, (storeSegment tcb new answer).closeAsked = false := by
    intro tcb new
    unfold storeSegment
    split
    · exact hdeliver _ _
    · exact hdeliver _ _
    · rfl
  rw [textAsksClose, Bool.and_eq_false_iff]
  right
  unfold tcpDataHandle
  split
  · rfl
  · split
    · split
      · rfl
      · exact hstore _ _
    · exact hstore _ _

/-- What the application is handed depends on the receiving side only. -/
theorem textAsksClose_congr
    {tcb tcb' : Tcb}
    (answer : DeliverCb) (pcb : Pcb)
    (hrcv : tcb'.rcv = tcb.rcv)
    (hbuf : tcb'.rcvBuf = tcb.rcvBuf) :
    textAsksClose answer pcb tcb' = textAsksClose answer pcb tcb := by
  have hurg : (urgTcb pcb tcb').rcv.nxt = (urgTcb pcb tcb).rcv.nxt ∧
      (urgTcb pcb tcb').rcvBuf = (urgTcb pcb tcb).rcvBuf := by
    unfold urgTcb
    rw [hrcv]
    split <;> exact ⟨by simp [hrcv], hbuf⟩
  rw [textAsksClose, textAsksClose, (tcpDataHandle_congr _ _ _ answer hurg.1 hurg.2).2]

/-- Receiving text: nothing on the sending side, or a close in the middle of it. -/
inductive TextDone (env : TsmEnv) (pcb : Pcb) (c c' : Tsm) : Prop
  | kept (h : Quiet c c')
  | closed {c₁ : Tsm} (hasks : textAsksClose env.answer pcb c.tcb = true) (hbefore : Quiet c c₁)
      (hafter : Quiet (tsmClose env.cfg c₁) c')

variable {env : TsmEnv} {pcb : Pcb} {c : Tsm}

theorem TextDone.trans_quiet
    {c' c'' : Tsm}
    (h : TextDone env pcb c c')
    (h' : Quiet c' c'') :
    TextDone env pcb c c'' := by
  cases h with
  | kept h =>
      exact .kept (h.trans h')
  | closed hasks hbefore hafter =>
      exact .closed hasks hbefore (hafter.trans h')

theorem quiet_handled
    (env : TsmEnv) (pcb : Pcb) (c : Tsm) (segSeq segLen : U32) :
    Quiet c
      (handled c (tcpDataHandle (urgTcb pcb c.tcb) pcb.mbuf segSeq segLen env.answer)) := by
  obtain ⟨nxt, buf, htcb⟩ :=
    tcpDataHandle_frame (urgTcb pcb c.tcb) pcb.mbuf segSeq segLen env.answer
  have hurg : SameSend c.tcb (urgTcb pcb c.tcb) := by
    unfold urgTcb
    split <;> constructor <;> rfl
  refine ⟨hurg.trans ?_, ⟨_, List.append_assoc _ _ _, ?_⟩, rfl⟩
  · simp only [handled, htcb]
    constructor <;> rfl
  · intro x hx
    rcases List.mem_append.1 hx with hx | hx
    · obtain ⟨call, -, rfl⟩ := List.mem_map.1 hx
      trivial
    · split at hx
      · rw [List.mem_singleton] at hx
        rw [hx]
        trivial
      · simp at hx

@[simp] theorem countMissingSeq_tcb
    (wasMissing : Bool) (c : Tsm) :
    (countMissingSeq wasMissing c).tcb = c.tcb := by
  unfold countMissingSeq
  simp only
  split
  · rfl
  · split <;> rfl

/-- The gauge concerns the receiving side. -/
theorem quiet_countMissingSeq
    (wasMissing : Bool) (c : Tsm) :
    Quiet c (countMissingSeq wasMissing c) := by
  unfold countMissingSeq
  simp only
  split
  · exact quiet_emit trivial
  · split
    · exact quiet_emit trivial
    · exact Quiet.refl c

theorem tsmHandleIncoming_done
    (env : TsmEnv) (c : Tsm)
    (hlen : pcb.l5Len ≠ 0) :
    TextDone env pcb c (tsmHandleIncoming env pcb c pcb.sentSeq pcb.l5Len).1 := by
  have hquiet := quiet_handled env pcb c pcb.sentSeq pcb.l5Len
  simp only [tsmHandleIncoming]
  split
  · rename_i hasks
    refine .closed ?_ hquiet (quiet_countMissingSeq _ _)
    rw [textAsksClose, decide_eq_true hlen, Bool.true_and]
    exact hasks
  · exact .kept (hquiet.trans (quiet_countMissingSeq _ _))

theorem receiveText_done
    (env : TsmEnv) (pcb : Pcb) (c : Tsm) :
    TextDone env pcb c (receiveText env pcb c) := by
  unfold receiveText
  split
  · exact .kept (Quiet.refl c)
  · rename_i hlen
    exact tsmHandleIncoming_done env c hlen

theorem receiveAndAck_done
    (env : TsmEnv) (pcb : Pcb) (c : Tsm) :
    TextDone env pcb c (receiveAndAck env pcb c) := by
  unfold receiveAndAck
  split
  · exact .kept (Quiet.refl c)
  · rename_i hlen
    have hdone := tsmHandleIncoming_done env c hlen
    simp only
    split
    · exact hdone.trans_quiet (quiet_ack _)
    · exact hdone

/-- Receiving text is quiet unless the application asks to close. -/
theorem receiveText_quiet
    (hasks : textAsksClose env.answer pcb c.tcb = false) :
    Quiet c (receiveText env pcb c) := by
  unfold receiveText
  split
  · exact Quiet.refl c
  · rename_i hlen
    have hno : (tcpDataHandle (urgTcb pcb c.tcb) pcb.mbuf pcb.sentSeq pcb.l5Len
        env.answer).closeAsked = false := by
      rw [textAsksClose, decide_eq_true hlen, Bool.true_and] at hasks
      exact hasks
    simp only [tsmHandleIncoming, hno, Bool.false_eq_true, if_false]
    exact (quiet_handled env pcb c _ _).trans (quiet_countMissingSeq _ _)

theorem receiveAndAck_quiet
    (hasks : textAsksClose env.answer pcb c.tcb = false) :
    Quiet c (receiveAndAck env pcb c) := by
  have htext := receiveText_quiet hasks
  unfold receiveText at htext
  unfold receiveAndAck
  split
  · exact Quiet.refl c
  · rename_i hlen
    rw [if_neg hlen] at htext
    simp only
    split
    · exact htext.trans (quiet_ack _)
    · exact htext

/-- Receiving text that makes the application close. -/
theorem receiveText_asks
    (hasks : textAsksClose env.answer pcb c.tcb = true) :
    ∃ c₁, Quiet c c₁ ∧ Quiet (tsmClose env.cfg c₁) (receiveText env pcb c) := by
  rw [textAsksClose, Bool.and_eq_true, decide_eq_true_eq] at hasks
  refine ⟨_, quiet_handled env pcb c pcb.sentSeq pcb.l5Len, ?_⟩
  simp only [receiveText, tsmHandleIncoming, hasks.1, hasks.2, if_false, if_true]
  exact quiet_countMissingSeq _ _

/-- Where a connection can be closed, the request leads to `TS_FIN_WAIT_I`. -/
theorem TextDone.of_open
    {c' : Tsm}
    (h : TextDone env pcb c c')
    (hstate : c.tcb.state = .established ∨ c.tcb.state = .synRecv) :
    Quiet c c' ∨
      (textAsksClose env.answer pcb c.tcb = true ∧
        ∃ c₁, Quiet c c₁ ∧ Quiet (enterFinWaitI env.cfg (c₁.tcpNotif .sessClosing)) c') := by
  cases h with
  | kept h =>
      exact Or.inl h
  | @closed c₁ hasks hbefore hafter =>
      have hclose : tsmClose env.cfg c₁ =
          enterFinWaitI env.cfg (c₁.tcpNotif .sessClosing) := by
        rcases hstate with hstate | hstate <;>
          simp only [tsmClose, hbefore.same.state, hstate]
      rw [hclose] at hafter
      exact Or.inr ⟨hasks, c₁, hbefore, hafter⟩

/-- Before the connection is established the request aborts it. -/
theorem TextDone.of_synSent
    {c' : Tsm}
    (h : TextDone env pcb c c')
    (hstate : c.tcb.state = .synSent) :
    Quiet c c' ∨
      (textAsksClose env.answer pcb c.tcb = true ∧
        ∃ c₁, Quiet c c₁ ∧ Quiet (notifyAndClose c₁) c') := by
  cases h with
  | kept h =>
      exact Or.inl h
  | @closed c₁ hasks hbefore hafter =>
      have hclose : tsmClose env.cfg c₁ = notifyAndClose c₁ := by
        simp only [tsmClose, hbefore.same.state, hstate]
      rw [hclose] at hafter
      exact Or.inr ⟨hasks, c₁, hbefore, hafter⟩

/-- A control block that was closed can neither be found nor has a timer. -/
theorem tcpSilentClose_dead
    (c : Tsm) :
    (tcpSilentClose c).tcb.inHtable = false ∧
      (tcpSilentClose c).tcb.onRtoList = false ∧
      (tcpSilentClose c).tcb.onSlowList = false := by
  unfold tcpSilentClose
  simp only
  split <;> exact ⟨rfl, rfl, rfl⟩

/-- In the closing states a request to close is refused. -/
theorem TextDone.quiet_of_closing
    {c' : Tsm}
    (h : TextDone env pcb c c')
    (hstate : c.tcb.state = .finWaitI ∨ c.tcb.state = .finWaitII) :
    Quiet c c' := by
  cases h with
  | kept h =>
      exact h
  | @closed c₁ hasks hbefore hafter =>
      have hclose : tsmClose env.cfg c₁ = c₁.fail .enotconn := by
        rcases hstate with hstate | hstate <;>
          simp only [tsmClose, hbefore.same.state, hstate]
      rw [hclose] at hafter
      exact hbefore.trans ((quiet_fail c₁ _).trans hafter)

end Text

section Elimination

variable {env : TsmEnv} {pcb : Pcb} {P : Tsm → Prop} {c : Tsm}

/-- The segment passes the checks in front of the ACK processing. -/
def ReachesAck (tcb : Tcb) (pcb : Pcb) : Prop :=
  tsmDoReceiveAcceptanceTest tcb pcb.l5Len pcb.sentSeq = true ∧
    pcb.flags.rst = false ∧ pcb.flags.syn = false ∧ pcb.flags.ack = true

instance (tcb : Tcb) (pcb : Pcb) : Decidable (ReachesAck tcb pcb) :=
  inferInstanceAs (Decidable (_ ∧ _))

/-- The segment passes the checks and carries a RST or a SYN. -/
def resets (tcb : Tcb) (pcb : Pcb) : Bool :=
  tsmDoReceiveAcceptanceTest tcb pcb.l5Len pcb.sentSeq && (pcb.flags.rst || pcb.flags.syn)

/-- The checks in front of the ACK processing leave the transition alone or answer with an ACK. -/
theorem segmentPrologue_cases
    {onRst onSyn onAck : Tsm → Tsm}
    (hsame : P c)
    (hanswer : P c.tcpSendAckPkt)
    (hrst : resets c.tcb pcb = true → P (onRst c))
    (hsyn : resets c.tcb pcb = true → P (onSyn c))
    (hack : ReachesAck c.tcb pcb → P (onAck c)) :
    P (segmentPrologue pcb onRst onSyn onAck c) := by
  unfold segmentPrologue
  split
  · split
    · exact hsame
    · exact hanswer
  · rename_i haccept
    have haccept' : tsmDoReceiveAcceptanceTest c.tcb pcb.l5Len pcb.sentSeq = true := by
      simpa using haccept
    split
    · rename_i hflag
      exact hrst (by rw [resets, haccept', hflag]; rfl)
    · rename_i hnorst
      split
      · rename_i hflag
        exact hsyn (by rw [resets, haccept', hflag, Bool.or_true]; rfl)
      · rename_i hnosyn
        split
        · exact hsame
        · rename_i hflag
          refine hack ⟨haccept', ?_, ?_, ?_⟩
          · simpa using hnorst
          · simpa using hnosyn
          · simpa using hflag

theorem segmentPrologue_elim
    {onRst onSyn onAck : Tsm → Tsm}
    (hquiet : ∀ c', Quiet c c' → P c')
    (hrst : P (onRst c))
    (hsyn : P (onSyn c))
    (hack : ReachesAck c.tcb pcb → P (onAck c)) :
    P (segmentPrologue pcb onRst onSyn onAck c) :=
  segmentPrologue_cases (hquiet c (Quiet.refl c)) (hquiet _ (quiet_ack c)) (fun _ => hrst)
    (fun _ => hsyn) hack

/-- The control block when the segment text is processed. -/
def acked (pcb : Pcb) (finSent : Bool) (c : Tsm) : Tsm :=
  (ackArrived pcb finSent c).onTcb (updateSndWnd pcb)

theorem ackProcessing_elim
    {finSent : Bool} {onText : Tsm → Tsm}
    (hunusable :
      ackUsable pcb (ackArrived pcb finSent c).tcb = false → P (ackArrived pcb finSent c))
    (htext :
      ackUsable pcb (ackArrived pcb finSent c).tcb = true → P (onText (acked pcb finSent c))) :
    P (ackProcessing pcb finSent onText c) := by
  unfold ackProcessing
  simp only
  split
  · rename_i h
    exact htext h
  · rename_i h
    exact hunusable (by simpa using h)

theorem ackArrived_elim
    {finSent : Bool}
    (hnone : P c)
    (hfin :
      finSent = true → pcb.recvAck = c.tcb.snd.nxt →
        segGT pcb.recvAck c.tcb.snd.una = true → P (tsmCleanupRetransQueu c (pcb.recvAck - 1)))
    (hdata :
      ¬ (finSent = true ∧ pcb.recvAck = c.tcb.snd.nxt) →
        segGT pcb.recvAck c.tcb.snd.una = true → segLE pcb.recvAck c.tcb.snd.nxt = true →
          P (tsmCleanupRetransQueu c pcb.recvAck)) :
    P (ackArrived pcb finSent c) := by
  unfold ackArrived
  split
  · rename_i h
    rw [Bool.and_eq_true] at h
    split
    · rename_i hf
      rw [Bool.and_eq_true, decide_eq_true_eq] at hf
      exact hfin hf.1 hf.2 h.1
    · rename_i hf
      rw [Bool.and_eq_true, decide_eq_true_eq] at hf
      exact hdata hf h.1 h.2
  · exact hnone

section Handshake

/-- In `TS_SYN_SENT` only the number after our SYN passes the checks. -/
theorem synSent_recvAck
    {ack iss : U32}
    (hlow : segLE ack iss = false)
    (hhigh : segGT ack (iss + 1) = false) :
    ack = iss + 1 := by
  rw [← Bool.not_eq_true, segLE_iff] at hlow
  rw [segGT, ← Bool.not_eq_true, segLT_iff] at hhigh
  bv_omega

/-- In `TS_SYN_RECV` our SYN is acknowledged, or the ACK is the one before it. -/
theorem synRecv_recvAck
    {ack iss : U32}
    (hlow : segGE ack iss = true)
    (hhigh : segLE ack (iss + 1) = true) :
    ack = iss ∨ ack = iss + 1 := by
  rw [segGE, segLE_iff] at hlow
  rw [segLE_iff] at hhigh
  bv_omega

theorem segGT_succ
    (iss : U32) :
    segGT (iss + 1) iss = true := by
  rw [segGT, segLT_iff]
  bv_omega

/-- Nothing is left for the clean-up to drop. -/
theorem tsmCleanupRetransQueu_una
    (c : Tsm) :
    tsmCleanupRetransQueu c c.tcb.snd.una = c := by
  simp [tsmCleanupRetransQueu, segDIFF]

/-- The control block that has been told about the ACK of our SYN. -/
def synAcked (pcb : Pcb) (c : Tsm) : Tsm :=
  ((incUna c).onTcb (setSndWnd pcb)).tcpNotif .sessConnected

/-- The control block that the text of a SYN-ACK is handed to. -/
def synAckText (pcb : Pcb) (c : Tsm) : Tsm :=
  synAcked pcb (c.onTcb (synReceived pcb))

/-- The segment is the SYN-ACK that `tsm_SF_syn_sent()` waits for. -/
structure SynAckArrives (tcb : Tcb) (pcb : Pcb) : Prop where
  ack : pcb.flags.ack = true
  syn : pcb.flags.syn = true
  rst : pcb.flags.rst = false
  recvAck : pcb.recvAck = tcb.snd.iss + 1

instance (tcb : Tcb) (pcb : Pcb) : Decidable (SynAckArrives tcb pcb) :=
  decidable_of_iff
    (pcb.flags.ack = true ∧ pcb.flags.syn = true ∧ pcb.flags.rst = false ∧
      pcb.recvAck = tcb.snd.iss + 1)
    ⟨fun h => ⟨h.1, h.2.1, h.2.2.1, h.2.2.2⟩, fun h => ⟨h.ack, h.syn, h.rst, h.recvAck⟩⟩

/-- The transition that the text of a SYN-ACK leads to. -/
def synAckDone (env : TsmEnv) (pcb : Pcb) (c : Tsm) : Tsm :=
  enterEstablished ((receiveText env pcb (synAckText pcb c)).onTcb tcpTimerRtoCancel)

/-- `tsm_SF_syn_sent()` with a segment. -/
theorem synSentSegment_cases
    (huna : c.tcb.snd.una = c.tcb.snd.iss)
    (hnxt : c.tcb.snd.nxt = c.tcb.snd.iss + 1)
    (hsame : P c)
    (hanswer : P (c.tcpSendCtrlPkt { ack := true, rst := true }))
    (hreset : pcb.flags.rst = true → P (notifyAndClose (rstReceived c)))
    (hcross :
      pcb.flags.ack = false →
        P (enterSynRecv env.cfg
          ((c.onTcb (synReceived pcb)).tcpSendCtrlPktUseIss { ack := true, syn := true })))
    (hconn :
      SynAckArrives c.tcb pcb →
        P (synAckDone env pcb c) ∧ P (synAckDone env pcb c).tcpSendAckPkt) :
    P (synSentSegment env pcb c) := by
  unfold synSentSegment
  split
  · split
    · exact hsame
    · exact hanswer
  · rename_i hbad
    split
    · exact hsame
    · split
      · rename_i hrst
        exact hreset hrst
      · rename_i hnorst
        split
        · rename_i hissyn
          unfold synSentSyn
          simp only
          by_cases hack : pcb.flags.ack = true
          · simp only [hack, Bool.true_and, Bool.or_eq_true, not_or, Bool.not_eq_true] at hbad
            have hrecv : pcb.recvAck = c.tcb.snd.iss + 1 :=
              synSent_recvAck hbad.1 (hnxt ▸ hbad.2)
            have hclean :
                tsmCleanupRetransQueu (incUna (c.onTcb (synReceived pcb))) pcb.recvAck =
                  incUna (c.onTcb (synReceived pcb)) := by
              rw [hrecv, ← huna]
              exact tsmCleanupRetransQueu_una (incUna (c.onTcb (synReceived pcb)))
            have hgt : segGT (incUna (c.onTcb (synReceived pcb))).tcb.snd.una
                (incUna (c.onTcb (synReceived pcb))).tcb.snd.iss = true := by
              change segGT (c.tcb.snd.una + 1) c.tcb.snd.iss = true
              rw [huna]
              exact segGT_succ _
            obtain ⟨hplain, hacked⟩ := hconn ⟨hack, hissyn, by simpa using hnorst, hrecv⟩
            simp only [hack, Bool.true_and, if_true, hclean, hgt]
            unfold synAckReceived
            simp only
            split
            · exact hacked
            · exact hplain
          · simp only [hack, Bool.false_and, Bool.false_eq_true, if_false]
            exact hcross (by simpa using hack)
        · exact hsame

/-- `tsm_SF_syn_sent()` with a segment; the text of a SYN-ACK is named. -/
theorem synSentSegment_text_elim
    (huna : c.tcb.snd.una = c.tcb.snd.iss)
    (hnxt : c.tcb.snd.nxt = c.tcb.snd.iss + 1)
    (hquiet : ∀ c', Quiet c c' → P c')
    (hreset : ∀ c', Quiet c c' → P (notifyAndClose c'))
    (hcross :
      pcb.flags.ack = false → ∀ c', Quiet c c' → P (enterSynRecv env.cfg c'))
    (hconn :
      SynAckArrives c.tcb pcb → ∀ c₂, Quiet (synAckDone env pcb c) c₂ → P c₂) :
    P (synSentSegment env pcb c) :=
  synSentSegment_cases huna hnxt (hquiet c (Quiet.refl c)) (hquiet _ (quiet_ctrl c _ rfl))
    (fun _ => hreset _ (quiet_rstReceived c))
    (fun hack => hcross hack _ ((quiet_synReceived pcb c).trans (quiet_ctrl _ _ rfl)))
    fun harrives => ⟨hconn harrives _ (Quiet.refl _), hconn harrives _ (quiet_ack _)⟩

/-- `tsm_SF_syn_sent()` with a segment. -/
theorem synSentSegment_elim
    (huna : c.tcb.snd.una = c.tcb.snd.iss)
    (hnxt : c.tcb.snd.nxt = c.tcb.snd.iss + 1)
    (hquiet : ∀ c', Quiet c c' → P c')
    (hreset : ∀ c', Quiet c c' → P (notifyAndClose c'))
    (hcross :
      pcb.flags.ack = false → ∀ c', Quiet c c' → P (enterSynRecv env.cfg c'))
    (hconn :
      ∀ c', Quiet c c' → ∀ c₁, TextDone env pcb (synAcked pcb c') c₁ →
        ∀ c₂, Quiet (enterEstablished (c₁.onTcb tcpTimerRtoCancel)) c₂ → P c₂) :
    P (synSentSegment env pcb c) :=
  synSentSegment_text_elim huna hnxt hquiet hreset hcross fun _ _ h₂ =>
    hconn _ (quiet_synReceived pcb c) _ (receiveText_done env pcb _) _ h₂

/-- `tsm_SF_syn_recv()` with a segment. -/
theorem synRecvSegment_elim
    (huna : c.tcb.snd.una = c.tcb.snd.iss)
    (hnxt : c.tcb.snd.nxt = c.tcb.snd.iss + 1)
    (hquiet : ∀ c', Quiet c c' → P c')
    (hreset : ∀ c', Quiet c c' → P (notifyAndClose c'))
    (hack :
      ReachesAck c.tcb pcb → ∀ c₀,
        (pcb.recvAck = c.tcb.snd.una ∧ c₀ = c) ∨
          (pcb.recvAck = c.tcb.snd.nxt ∧ c₀ = incUna c) →
        ∀ c', TextDone env pcb (c₀.onTcb (setSndWnd pcb)) c' →
          (pcb.flags.fin = false → P (enterEstablished (c'.onTcb tcpTimerRtoCancel))) ∧
          (pcb.flags.fin = true → P (enterCloseWait env.cfg (c'.tcpNotif .sessClosing)))) :
    P (synRecvSegment env pcb c) := by
  refine segmentPrologue_elim hquiet (hreset _ (quiet_rstReceived c))
    (hreset c (Quiet.refl c)) fun hreach => ?_
  have hacked : ∀ c₀,
      (pcb.recvAck = c.tcb.snd.una ∧ c₀ = c) ∨
        (pcb.recvAck = c.tcb.snd.nxt ∧ c₀ = incUna c) → P (synRecvAcked env pcb c₀) := by
    intro c₀ hc₀
    have hdone := receiveAndAck_done env pcb (c₀.onTcb (setSndWnd pcb))
    unfold synRecvAcked
    simp only
    split
    · rename_i hfin
      exact (hack hreach c₀ hc₀ _ (hdone.trans_quiet (quiet_consumeFin _))).2 hfin
    · rename_i hfin
      exact (hack hreach c₀ hc₀ _ hdone).1 (by simpa using hfin)
  unfold synRecvAck
  split
  · exact hquiet _ (quiet_ctrl c _ rfl)
  · rename_i hok
    rw [Bool.not_eq_true', Bool.not_eq_false, Bool.and_eq_true, huna, hnxt] at hok
    simp only
    split
    · rename_i hgt
      rcases synRecv_recvAck hok.1 hok.2 with hold | hnew
      · rw [hold, huna, segGT, segLT_self] at hgt
        cases hgt
      · have hclean : tsmCleanupRetransQueu (incUna c) pcb.recvAck = incUna c := by
          rw [hnew, ← huna]
          exact tsmCleanupRetransQueu_una (incUna c)
        rw [hclean]
        exact hacked _ (Or.inr ⟨hnew.trans hnxt.symm, rfl⟩)
    · rename_i hgt
      rcases synRecv_recvAck hok.1 hok.2 with hold | hnew
      · exact hacked _ (Or.inl ⟨hold.trans huna.symm, rfl⟩)
      · rw [hnew, huna, segGT_succ] at hgt
        exact absurd rfl hgt

/-- The text of a segment is delivered in `TS_SYN_RECV`, and the application asks to close. -/
structure SynRecvCloses (answer : DeliverCb) (pcb : Pcb) (tcb : Tcb) : Prop where
  reached : ReachesAck tcb pcb
  low : segGE pcb.recvAck tcb.snd.una = true
  high : segLE pcb.recvAck tcb.snd.nxt = true
  asks : textAsksClose answer pcb tcb = true

theorem not_synRecvCloses
    {answer : DeliverCb} {tcb : Tcb}
    (hnever : NeverAsksClose answer) :
    ¬ SynRecvCloses answer pcb tcb := by
  intro hcloses
  have hasks := hcloses.asks
  rw [textAsksClose_of_never hnever] at hasks
  cases hasks

/-- Where the text is delivered, the ACK is one of the two that are taken. -/
theorem synRecvCloses_of
    {c₀ : Tsm}
    (huna : c.tcb.snd.una = c.tcb.snd.iss)
    (hnxt : c.tcb.snd.nxt = c.tcb.snd.iss + 1)
    (hreach : ReachesAck c.tcb pcb)
    (hc₀ : (pcb.recvAck = c.tcb.snd.una ∧ c₀ = c) ∨
      (pcb.recvAck = c.tcb.snd.nxt ∧ c₀ = incUna c))
    (hasks : textAsksClose env.answer pcb (c₀.onTcb (setSndWnd pcb)).tcb = true) :
    SynRecvCloses env.answer pcb c.tcb := by
  have hasks' : textAsksClose env.answer pcb c.tcb = true := by
    rcases hc₀ with ⟨-, rfl⟩ | ⟨-, rfl⟩
    · rwa [@textAsksClose_congr c₀.tcb (c₀.onTcb _).tcb env.answer pcb rfl rfl] at hasks
    · rwa [@textAsksClose_congr c.tcb ((incUna c).onTcb _).tcb env.answer pcb rfl rfl] at hasks
  rcases hc₀ with ⟨hack, -⟩ | ⟨hack, -⟩
  · refine ⟨hreach, ?_, ?_, hasks'⟩
    · rw [hack, segGE, segLE_iff, BitVec.sub_self]
      decide
    · rw [hack, huna, hnxt, segLE_iff]
      bv_omega
  · refine ⟨hreach, ?_, ?_, hasks'⟩
    · rw [hack, huna, hnxt, segGE, segLE_iff]
      bv_omega
    · rw [hack, segLE_iff, BitVec.sub_self]
      decide

end Handshake

/-- The acknowledgement does not move `SND.NXT`. -/
theorem ackArrived_nxt
    (pcb : Pcb) (finSent : Bool) (c : Tsm) :
    (ackArrived pcb finSent c).tcb.snd.nxt = c.tcb.snd.nxt := by
  have hclean : ∀ a, (tsmCleanupRetransQueu c a).tcb.snd.nxt = c.tcb.snd.nxt := by
    intro a
    simp only [tsmCleanupRetransQueu]
    repeat' split
    all_goals rfl
  exact ackArrived_elim (P := fun c' => c'.tcb.snd.nxt = c.tcb.snd.nxt) rfl
    (fun _ _ _ => hclean _) (fun _ _ _ => hclean _)

theorem acked_fields
    (pcb : Pcb) (finSent : Bool) (c : Tsm) :
    (acked pcb finSent c).tcb.snd.una = (ackArrived pcb finSent c).tcb.snd.una ∧
      (acked pcb finSent c).tcb.snd.nxt = (ackArrived pcb finSent c).tcb.snd.nxt ∧
      (acked pcb finSent c).tcb.retrans = (ackArrived pcb finSent c).tcb.retrans ∧
      (acked pcb finSent c).tcb.onRtoList = (ackArrived pcb finSent c).tcb.onRtoList ∧
      (acked pcb finSent c).tcb.onSlowList = (ackArrived pcb finSent c).tcb.onSlowList := by
  simp only [acked, onTcb_tcb, updateSndWnd]
  split <;> exact ⟨rfl, rfl, rfl, rfl, rfl⟩

/-- The acknowledgement concerns the sending side. -/
theorem acked_receiving
    (pcb : Pcb) (finSent : Bool) (c : Tsm) :
    (acked pcb finSent c).tcb.rcv = c.tcb.rcv ∧
      (acked pcb finSent c).tcb.rcvBuf = c.tcb.rcvBuf := by
  have hclean : ∀ a, (tsmCleanupRetransQueu c a).tcb.rcv = c.tcb.rcv ∧
      (tsmCleanupRetransQueu c a).tcb.rcvBuf = c.tcb.rcvBuf := by
    intro a
    simp only [tsmCleanupRetransQueu]
    repeat' split
    all_goals exact ⟨rfl, rfl⟩
  have harrived : (ackArrived pcb finSent c).tcb.rcv = c.tcb.rcv ∧
      (ackArrived pcb finSent c).tcb.rcvBuf = c.tcb.rcvBuf :=
    ackArrived_elim (P := fun c' => c'.tcb.rcv = c.tcb.rcv ∧ c'.tcb.rcvBuf = c.tcb.rcvBuf)
      ⟨rfl, rfl⟩ (fun _ _ _ => hclean _) (fun _ _ _ => hclean _)
  simp only [acked, onTcb_tcb, updateSndWnd]
  split <;> exact harrived

section FinReceived

theorem tsmCleanupRetransQueu_finRcvd
    (c : Tsm) (segAck : U32) :
    (tsmCleanupRetransQueu c segAck).tcb.finRcvd = c.tcb.finRcvd := by
  simp only [tsmCleanupRetransQueu]
  split
  · rfl
  · split
    · rfl
    · split <;> rfl

theorem acked_finRcvd
    (pcb : Pcb) (finSent : Bool) (c : Tsm) :
    (acked pcb finSent c).tcb.finRcvd = c.tcb.finRcvd := by
  have harrived : (ackArrived pcb finSent c).tcb.finRcvd = c.tcb.finRcvd :=
    ackArrived_elim (P := fun c' => c'.tcb.finRcvd = c.tcb.finRcvd) rfl
      (fun _ _ _ => tsmCleanupRetransQueu_finRcvd c _)
      (fun _ _ _ => tsmCleanupRetransQueu_finRcvd c _)
  rw [← harrived, acked, onTcb_tcb]
  unfold updateSndWnd
  split <;> rfl

theorem tcpSilentClose_finRcvd
    (c : Tsm) :
    (tcpSilentClose c).tcb.finRcvd = c.tcb.finRcvd := by
  unfold tcpSilentClose
  simp only
  split <;> rfl

theorem tsmClose_finRcvd
    (cfg : TcpConfig) (c : Tsm) :
    (tsmClose cfg c).tcb.finRcvd = c.tcb.finRcvd := by
  have hfin : (enterFinWaitI cfg (c.tcpNotif .sessClosing)).tcb.finRcvd = c.tcb.finRcvd := by
    rw [enterFinWaitI, onTcb_tcb, Function.comp_apply, tcpTimerSlowSet_eq,
      tsmScheduleRetransmission_eq]
    rfl
  unfold tsmClose
  split
  · exact tcpSilentClose_finRcvd _
  · exact tcpSilentClose_finRcvd _
  · exact tcpSilentClose_finRcvd _
  · exact hfin
  · exact hfin
  all_goals rfl

theorem receiveAndAck_finRcvd
    (env : TsmEnv) (pcb : Pcb) (c : Tsm) :
    (receiveAndAck env pcb c).tcb.finRcvd = c.tcb.finRcvd := by
  have hhandled : ∀ seq len,
      (handled c (tcpDataHandle (urgTcb pcb c.tcb) pcb.mbuf seq len env.answer)).tcb.finRcvd =
        c.tcb.finRcvd := by
    intro seq len
    obtain ⟨nxt, buf, htcb⟩ :=
      tcpDataHandle_frame (urgTcb pcb c.tcb) pcb.mbuf seq len env.answer
    simp only [handled, htcb]
    unfold urgTcb
    split <;> rfl
  have hincoming : ∀ seq len,
      (tsmHandleIncoming env pcb c seq len).1.tcb.finRcvd = c.tcb.finRcvd := by
    intro seq len
    simp only [tsmHandleIncoming, countMissingSeq_tcb]
    split
    · rw [tsmClose_finRcvd, hhandled]
    · exact hhandled seq len
  unfold receiveAndAck
  split
  · rfl
  · simp only
    split
    · exact hincoming _ _
    · exact hincoming _ _

end FinReceived

/-- The FIN of the peer is next, in `TS_ESTABLISHED` after the text. -/
def estabSeesFin (pcb : Pcb) (tcb : Tcb) : Bool :=
  if pcb.flags.fin then
    decide (tcb.rcv.nxt = pcb.sentSeq + pcb.l5Len)
  else
    tcb.finRcvd && decide (tcb.rcv.nxt = tcb.rcvFinSeq)

/-- The FIN of the peer is consumed, or nothing is sent. -/
theorem estabFin_cases
    (hsees : estabSeesFin pcb c.tcb = true → P (estabConsumeFin env c))
    (hno : estabSeesFin pcb c.tcb = false → P c ∧ P (rememberFin pcb c)) :
    P (estabFin env pcb c) := by
  unfold estabFin
  unfold estabSeesFin at hsees hno
  split
  · rename_i hfin
    simp only [hfin, if_true, decide_eq_true_eq, decide_eq_false_iff_not] at hsees hno
    split
    · rename_i hnext
      exact (hno hnext).2
    · rename_i hnext
      exact hsees (not_not.1 hnext)
  · rename_i hfin
    rw [if_neg hfin] at hsees hno
    split
    · rename_i hearly
      exact hsees hearly
    · rename_i hearly
      exact (hno (by simpa using hearly)).1

/-- The FIN of the peer is the next number, once the text of its segment was received. -/
def finTaken (env : TsmEnv) (pcb : Pcb) (c : Tsm) : Bool :=
  estabSeesFin pcb (receiveAndAck env pcb c).tcb

/-- A FIN is taken when the segment has one, or when one came early. -/
theorem finTaken_flag
    (h : finTaken env pcb (acked pcb false c) = true) :
    pcb.flags.fin = true ∨ c.tcb.finRcvd = true := by
  unfold finTaken estabSeesFin at h
  split at h
  · rename_i hflag
    exact Or.inl hflag
  · rw [Bool.and_eq_true, receiveAndAck_finRcvd, acked_finRcvd] at h
    exact Or.inr h.1

/-- The application asks to close in `TS_ESTABLISHED`, and the FIN of the peer is next. -/
structure ClosesBeforeFin (env : TsmEnv) (pcb : Pcb) (c : Tsm) : Prop where
  reached : ReachesAck c.tcb pcb
  usable : ackUsable pcb (ackArrived pcb false c).tcb = true
  asks : textAsksClose env.answer pcb c.tcb = true
  taken : finTaken env pcb (acked pcb false c) = true

theorem not_closesBeforeFin
    (hnever : NeverAsksClose env.answer) :
    ¬ ClosesBeforeFin env pcb c := by
  intro hcloses
  have hasks := hcloses.asks
  rw [textAsksClose_of_never hnever] at hasks
  cases hasks

/-- `tsm_SF_estab()` with a segment; the text and the FIN are named. -/
theorem estabSegment_text_elim
    (hquiet : ∀ c', Quiet c c' → P c')
    (hreset : ∀ c', Quiet c c' → P (notifyAndClose c'))
    (hunusable :
      ackUsable pcb (ackArrived pcb false c).tcb = false → P (ackArrived pcb false c))
    (htext :
      ReachesAck c.tcb pcb → ackUsable pcb (ackArrived pcb false c).tcb = true →
        ∀ c', Quiet (receiveAndAck env pcb (acked pcb false c)) c' →
          (finTaken env pcb (acked pcb false c) = false → P c') ∧
          (finTaken env pcb (acked pcb false c) = true →
            P (enterCloseWait env.cfg (c'.tcpNotif .sessClosing)))) :
    P (estabSegment env pcb c) := by
  refine segmentPrologue_elim hquiet (hreset _ (quiet_rstReceived c))
    (hreset c (Quiet.refl c)) fun hreach => ?_
  refine ackProcessing_elim hunusable fun husable => ?_
  have hcases := htext hreach husable
  exact estabFin_cases (fun hsees => (hcases _ (quiet_consumeFin _)).2 hsees)
    fun hno => ⟨(hcases _ (Quiet.refl _)).1 hno, (hcases _ (quiet_rememberFin pcb _)).1 hno⟩

/-- `tsm_SF_estab()` with a segment. -/
theorem estabSegment_elim
    (hquiet : ∀ c', Quiet c c' → P c')
    (hreset : ∀ c', Quiet c c' → P (notifyAndClose c'))
    (hunusable :
      ackUsable pcb (ackArrived pcb false c).tcb = false → P (ackArrived pcb false c))
    (htext : ReachesAck c.tcb pcb → ∀ c', TextDone env pcb (acked pcb false c) c' → P c')
    (hfin :
      ReachesAck c.tcb pcb → pcb.flags.fin = true ∨ c.tcb.finRcvd = true →
        ∀ c', TextDone env pcb (acked pcb false c) c' →
          P (enterCloseWait env.cfg (c'.tcpNotif .sessClosing))) :
    P (estabSegment env pcb c) := by
  refine estabSegment_text_elim hquiet hreset hunusable fun hreach _ c' hq => ?_
  have hdone := (receiveAndAck_done env pcb (acked pcb false c)).trans_quiet hq
  exact ⟨fun _ => htext hreach c' hdone, fun htaken => hfin hreach (finTaken_flag htaken) c' hdone⟩

/-- The segment has a FIN, and its number is the next once the text was received. -/
def finNext (env : TsmEnv) (pcb : Pcb) (c : Tsm) : Bool :=
  pcb.flags.fin &&
    decide ((receiveText env pcb c).tcb.rcv.nxt = pcb.sentSeq + pcb.l5Len)

/-- `tsm_SF_fin_wait_I()` with a segment; whether a FIN is taken is named. -/
theorem finWaitISegment_text_elim
    (hstate : (acked pcb true c).tcb.state = .finWaitI)
    (hquiet : ∀ c', Quiet c c' → P c')
    (hreset : ∀ c', Quiet (c.onTcb tcpTimerSlowCancel) c' → P (enterClosed c'))
    (hunusable :
      ackUsable pcb (ackArrived pcb true c).tcb = false → P (ackArrived pcb true c))
    (hstay :
      ReachesAck c.tcb pcb → ourFinAcked pcb (acked pcb true c).tcb = false →
        finNext env pcb (acked pcb true c) = false → ∀ c', Quiet (acked pcb true c) c' → P c')
    (hclosing :
      ReachesAck c.tcb pcb → ourFinAcked pcb (acked pcb true c).tcb = false →
        pcb.flags.fin = true → ∀ c', Quiet (acked pcb true c) c' →
          P (enterClosing env.cfg (c'.onTcb tcpTimerSlowCancel)))
    (hlost :
      ReachesAck c.tcb pcb → ourFinAcked pcb (acked pcb true c).tcb = true →
        pcb.flags.fin = true → ∀ c', Quiet (incUna (acked pcb true c)) c' → P c')
    (hfinWaitII :
      ReachesAck c.tcb pcb → ourFinAcked pcb (acked pcb true c).tcb = true →
        ∀ c', Quiet (incUna (acked pcb true c)) c' →
          P (enterFinWaitII env.cfg (c'.onTcb tcpTimerSlowCancel)))
    (htimeWait :
      ReachesAck c.tcb pcb → ourFinAcked pcb (acked pcb true c).tcb = true →
        ∀ c', Quiet (incUna (acked pcb true c)) c' →
          P (enterTimeWait env.cfg (c'.onTcb tcpTimerSlowCancel))) :
    P (finWaitISegment env pcb c) := by
  refine segmentPrologue_elim hquiet (hreset _ (quiet_rstReceived _))
    (hreset _ (Quiet.refl _)) fun hreach => ?_
  refine ackProcessing_elim hunusable fun _ => ?_
  have hstep : ∀ c', Quiet c' (finWaitIStepOverFin c') := by
    intro c'
    unfold finWaitIStepOverFin
    split
    · exact quiet_consumeFin c'
    · exact Quiet.refl c'
  unfold finWaitIText
  split
  · rename_i hours
    have hdone := (receiveText_done env pcb (incUna (acked pcb true c))).quiet_of_closing
      (Or.inl hstate)
    unfold finWaitIFin
    split
    · exact hfinWaitII hreach hours _ (hdone.trans ((hstep _).trans (quiet_ack _)))
    · rename_i hfin
      have hfin' : pcb.flags.fin = true := by simpa using hfin
      split
      · exact hlost hreach hours hfin' _ (hdone.trans (quiet_rememberFin pcb _))
      · exact htimeWait hreach hours _
          (hdone.trans ((quiet_consumeFin _).trans (quiet_ack _)))
  · rename_i hours
    have hours' : ourFinAcked pcb (acked pcb true c).tcb = false := by
      simpa using hours
    have hdone := (receiveText_done env pcb (acked pcb true c)).quiet_of_closing
      (Or.inl hstate)
    unfold finWaitIFin
    split
    · rename_i hfin
      have hflag : pcb.flags.fin = false := by simpa using hfin
      have hnone : finNext env pcb (acked pcb true c) = false := by
        rw [finNext, hflag, Bool.false_and]
      exact hstay hreach hours' hnone _ (hdone.trans ((hstep _).trans (quiet_ack _)))
    · rename_i hfin
      have hfin' : pcb.flags.fin = true := by simpa using hfin
      split
      · rename_i hother
        have hnone : finNext env pcb (acked pcb true c) = false := by
          rw [finNext, decide_eq_false hother, Bool.and_false]
        exact hstay hreach hours' hnone _ (hdone.trans (quiet_rememberFin pcb _))
      · exact hclosing hreach hours' hfin' _
          (hdone.trans ((quiet_consumeFin _).trans (quiet_ack _)))

/-- `tsm_SF_fin_wait_I()` with a segment. -/
theorem finWaitISegment_elim
    (hstate : (acked pcb true c).tcb.state = .finWaitI)
    (hquiet : ∀ c', Quiet c c' → P c')
    (hreset : ∀ c', Quiet (c.onTcb tcpTimerSlowCancel) c' → P (enterClosed c'))
    (hunusable :
      ackUsable pcb (ackArrived pcb true c).tcb = false → P (ackArrived pcb true c))
    (hstay :
      ReachesAck c.tcb pcb → ourFinAcked pcb (acked pcb true c).tcb = false →
        ∀ c', Quiet (acked pcb true c) c' → P c')
    (hclosing :
      ReachesAck c.tcb pcb → ourFinAcked pcb (acked pcb true c).tcb = false →
        pcb.flags.fin = true → ∀ c', Quiet (acked pcb true c) c' →
          P (enterClosing env.cfg (c'.onTcb tcpTimerSlowCancel)))
    (hlost :
      ReachesAck c.tcb pcb → ourFinAcked pcb (acked pcb true c).tcb = true →
        pcb.flags.fin = true → ∀ c', Quiet (incUna (acked pcb true c)) c' → P c')
    (hfinWaitII :
      ReachesAck c.tcb pcb → ourFinAcked pcb (acked pcb true c).tcb = true →
        ∀ c', Quiet (incUna (acked pcb true c)) c' →
          P (enterFinWaitII env.cfg (c'.onTcb tcpTimerSlowCancel)))
    (htimeWait :
      ReachesAck c.tcb pcb → ourFinAcked pcb (acked pcb true c).tcb = true →
        ∀ c', Quiet (incUna (acked pcb true c)) c' →
          P (enterTimeWait env.cfg (c'.onTcb tcpTimerSlowCancel))) :
    P (finWaitISegment env pcb c) :=
  finWaitISegment_text_elim hstate hquiet hreset hunusable
    (fun hreach hours _ => hstay hreach hours) hclosing hlost hfinWaitII htimeWait

/-- `tsm_SF_fin_wait_II()` with a segment. -/
theorem finWaitIISegment_elim
    (hstate : (acked pcb false c).tcb.state = .finWaitII)
    (hquiet : ∀ c', Quiet c c' → P c')
    (hreset : ∀ c', Quiet (c.onTcb tcpTimerSlowCancel) c' → P (enterClosed c'))
    (hunusable :
      ackUsable pcb (ackArrived pcb false c).tcb = false → P (ackArrived pcb false c))
    (hstay : ReachesAck c.tcb pcb → ∀ c', Quiet (acked pcb false c) c' → P c')
    (htimeWait :
      ReachesAck c.tcb pcb → ∀ c', Quiet (acked pcb false c) c' →
        ∀ c'', Quiet (c'.onTcb tcpTimerSlowCancel) c'' → P (enterTimeWait env.cfg c'')) :
    P (finWaitIISegment env pcb c) := by
  refine segmentPrologue_elim hquiet (hreset _ (quiet_rstReceived _))
    (hreset _ (Quiet.refl _)) fun hreach => ?_
  refine ackProcessing_elim hunusable fun _ => ?_
  have hdone := (receiveText_done env pcb (acked pcb false c)).quiet_of_closing
    (Or.inr hstate)
  unfold finWaitIIText
  simp only
  split
  · exact hstay hreach _ (hdone.trans (quiet_ack _))
  · exact htimeWait hreach _ hdone _ ((quiet_consumeFin _).trans (quiet_ack _))

/-- `tsm_SF_last_ack()` with a segment. -/
theorem lastAckSegment_elim
    (hquiet : ∀ c', Quiet c c' → P c')
    (hclosed : ∀ c', Quiet c c' → P (enterClosed c')) :
    P (lastAckSegment pcb c) := by
  refine segmentPrologue_elim hquiet (hclosed _ (quiet_rstReceived c))
    (hclosed c (Quiet.refl c)) fun _ => ?_
  split
  · exact hclosed c (Quiet.refl c)
  · exact hquiet c (Quiet.refl c)

/-- `tsm_SF_closing()` with a segment. -/
theorem closingSegment_elim
    (hquiet : ∀ c', Quiet c c' → P c')
    (hclosed : ∀ c', Quiet c c' → P (enterClosed c'))
    (hunusable :
      ackUsable pcb (ackArrived pcb true c).tcb = false → P (ackArrived pcb true c))
    (hstay :
      ReachesAck c.tcb pcb → ourFinAcked pcb (acked pcb true c).tcb = false →
        P (acked pcb true c))
    (htimeWait :
      ReachesAck c.tcb pcb → ourFinAcked pcb (acked pcb true c).tcb = true →
        P (enterTimeWait env.cfg ((acked pcb true c).onTcb tcpTimerRtoCancel))) :
    P (closingSegment env pcb c) := by
  refine segmentPrologue_elim hquiet (hclosed _ (quiet_rstReceived c))
    (hclosed c (Quiet.refl c)) fun hreach => ?_
  refine ackProcessing_elim hunusable fun _ => ?_
  split
  · rename_i hours
    exact htimeWait hreach hours
  · rename_i hours
    exact hstay hreach (by simpa using hours)

/-- `tsm_SF_time_wait()` with a segment. -/
theorem timeWaitSegment_elim
    (hquiet : ∀ c', Quiet c c' → P c')
    (hclosed : ∀ c', Quiet c c' → P (enterClosed c'))
    (hrestart :
      ∀ c', Quiet c c' →
        P (c'.onTcb
          (tcpTimerSlowSet env.cfg env.cfg.sockopt.tcpoTwaitTo ∘ tcpTimerSlowCancel))) :
    P (timeWaitSegment env pcb c) := by
  unfold timeWaitSegment
  split
  · split
    · exact hquiet c (Quiet.refl c)
    · exact hquiet _ (quiet_ack c)
  · split
    · exact hclosed _ (quiet_rstReceived c)
    · split
      · exact hclosed c (Quiet.refl c)
      · refine hrestart _ ((quiet_ack c).trans ?_)
        split
        · exact Quiet.refl _
        · exact quiet_emit trivial

/-- `tsm_SF_listen()` with a segment. -/
theorem listenSegment_elim
    (hquiet : ∀ c', Quiet c c' → P c') :
    P (listenSegment pcb c) := by
  unfold listenSegment
  split
  · exact hquiet _ (quiet_ctrl c _ rfl)
  · exact hquiet c (Quiet.refl c)

end Elimination

end TransitionPaths
end Warp17
