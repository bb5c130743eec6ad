import Warp17.TransitionPaths
import Warp17.ReceiveReassembly
import Warp17.ConnectionRuns

/-!
# The receiving half of a transition

A control block that is connected reads: it hands the text of segments to the application in
the order of the peer's numbers.  It stops when the FIN of the peer has been taken.

Most of a transition leaves the receiving half alone (`Aside`): whether it reads, `RCV.NXT`,
the receive buffer, and what is remembered of a FIN that came early; nothing is delivered.
Such a part may send, but a SYN only with the initial sequence number and without data, and it
acknowledges `RCV.NXT`.  What remains are the text and the FIN of a segment, and the steps that
stop the reading (`Ends`).

**Results**
- `aside_tsmSend` to `aside_slowTimer`: user calls and timeouts are no part of the receiving half.
- `aside_receiveText`: receiving text is a call of `tcp_data_handle`, and a part aside.
- `reads_receiveText`: a control block that reads is still in use after it.
-/

namespace Warp17
namespace ReceivePaths

open SequenceComparison MbufChains ControlBlock ReceiveBuffer SendQueue TcpStateMachine
open TransitionPaths ConnectionRuns ReceiveReassembly

/-- What a state does with the text of a segment. -/
inductive Phase
  | opening
  | reading
  | ended
deriving DecidableEq

/-- Before the peer's SYN, until its FIN, and after it. -/
def phase : TcpState → Phase
  | .init | .listen | .synSent => .opening
  | .synRecv | .established | .finWaitI | .finWaitII => .reading
  | .closeWait | .lastAck | .closing | .timeWait | .closed => .ended

/-- The bytes that the application has taken. -/
def consumedIn (out : List TcpOutput) : List UInt8 :=
  out.flatMap fun
    | .deliver call => DeliverCall.bytes call
    | _ => []

/-- A SYN has the initial sequence number and no data. -/
def SynFirst (iss : U32) (p : TxPkt) : Prop :=
  p.flags.syn = true → p.seq = iss ∧ p.data = []

/-- An effect that delivers nothing, is no SYN but the first number, and acknowledges `nxt`. -/
def AsideOutput (iss nxt : U32) : TcpOutput → Prop
  | .pkt p => SynFirst iss p ∧ p.ack = nxt
  | .deliver _ => False
  | .notif _ | .enter _ | .asserted | .missingSeq _ => True

/-- The receiving halves of two control blocks agree. -/
structure SameRecv (t t' : Tcb) : Prop where
  phase : phase t'.state = phase t.state
  nxt : t'.rcv.nxt = t.rcv.nxt
  rcvBuf : t'.rcvBuf = t.rcvBuf
  finRcvd : t'.finRcvd = t.finRcvd
  rcvFinSeq : t'.rcvFinSeq = t.rcvFinSeq

/-- A part of a transition that leaves the receiving half alone, or closes. -/
structure Aside (c c' : Tsm) : Prop where
  iss : c'.tcb.snd.iss = c.tcb.snd.iss
  nxt : c'.tcb.rcv.nxt = c.tcb.rcv.nxt
  live : c'.tcb.inHtable = true → c.tcb.inHtable = true ∧ SameRecv c.tcb c'.tcb
  out : ∃ o, c'.out = c.out ++ o ∧ ∀ x ∈ o, AsideOutput c.tcb.snd.iss c.tcb.rcv.nxt x

/-- A part of a transition that stops the reading. -/
structure Ends (c c' : Tsm) : Prop where
  iss : c'.tcb.snd.iss = c.tcb.snd.iss
  nxt : c'.tcb.rcv.nxt = c.tcb.rcv.nxt
  live : c'.tcb.inHtable = true → c.tcb.inHtable = true ∧ phase c'.tcb.state = .ended
  out : ∃ o, c'.out = c.out ++ o ∧ ∀ x ∈ o, AsideOutput c.tcb.snd.iss c.tcb.rcv.nxt x

section Outputs

@[simp] theorem consumedIn_append
    (out out' : List TcpOutput) :
    consumedIn (out ++ out') = consumedIn out ++ consumedIn out' := by
  simp [consumedIn]

theorem consumedIn_aside
    {iss nxt : U32} {o : List TcpOutput}
    (h : ∀ x ∈ o, AsideOutput iss nxt x) :
    consumedIn o = [] := by
  induction o with
  | nil =>
      rfl
  | cons x o ih =>
      have hx := h x List.mem_cons_self
      have hrest := ih fun y hy => h y (List.mem_cons_of_mem _ hy)
      change (match x with | .deliver call => DeliverCall.bytes call | _ => []) ++ consumedIn o = []
      rw [hrest, List.append_nil]
      cases x with
      | deliver call =>
          exact hx.elim
      | pkt p | notif n | enter s | asserted | missingSeq more =>
          rfl

theorem consumedIn_deliver
    (calls : List DeliverCall) :
    consumedIn (calls.map .deliver) = calls.flatMap DeliverCall.bytes := by
  induction calls with
  | nil =>
      rfl
  | cons call calls ih =>
      rw [List.flatMap_cons, ← ih]
      rfl

/-- The packets of a part aside keep the rules about the SYN and the acknowledged number. -/
theorem packet_aside
    {iss nxt : U32} {o : List TcpOutput} {p : TxPkt}
    (h : ∀ x ∈ o, AsideOutput iss nxt x)
    (hp : p ∈ packets o) :
    SynFirst iss p ∧ p.ack = nxt := by
  obtain ⟨x, hx, heq⟩ := List.mem_filterMap.1 hp
  have hx' := h x hx
  cases x with
  | pkt q =>
      cases heq
      exact hx'
  | notif n | deliver call | enter s | asserted | missingSeq more =>
      cases heq

end Outputs

section Parts

variable {cfg : TcpConfig} {c c' c'' : Tsm} {f : Tcb → Tcb}

theorem SameRecv.refl
    (t : Tcb) :
    SameRecv t t :=
  ⟨rfl, rfl, rfl, rfl, rfl⟩

theorem SameRecv.trans
    {t t' t'' : Tcb}
    (h : SameRecv t t')
    (h' : SameRecv t' t'') :
    SameRecv t t'' :=
  ⟨h'.phase.trans h.phase, h'.nxt.trans h.nxt, h'.rcvBuf.trans h.rcvBuf,
    h'.finRcvd.trans h.finRcvd, h'.rcvFinSeq.trans h.rcvFinSeq⟩

theorem Aside.refl
    (c : Tsm) :
    Aside c c :=
  ⟨rfl, rfl, fun hlive => ⟨hlive, SameRecv.refl _⟩, [], by simp, by simp⟩

theorem Aside.trans
    (h : Aside c c')
    (h' : Aside c' c'') :
    Aside c c'' := by
  obtain ⟨o, ho, hall⟩ := h.out
  obtain ⟨o', ho', hall'⟩ := h'.out
  refine ⟨h'.iss.trans h.iss, h'.nxt.trans h.nxt, fun hlive => ?_, o ++ o', ?_, fun x hx => ?_⟩
  · obtain ⟨hlive', hsame'⟩ := h'.live hlive
    obtain ⟨hlive'', hsame⟩ := h.live hlive'
    exact ⟨hlive'', hsame.trans hsame'⟩
  · rw [ho', ho, List.append_assoc]
  · rcases List.mem_append.1 hx with hx | hx
    · exact hall x hx
    · rw [← h.iss, ← h.nxt]
      exact hall' x hx

theorem Aside.ends
    (h : Aside c c')
    (h' : Ends c' c'') :
    Ends c c'' := by
  obtain ⟨o, ho, hall⟩ := h.out
  obtain ⟨o', ho', hall'⟩ := h'.out
  refine ⟨h'.iss.trans h.iss, h'.nxt.trans h.nxt, fun hlive => ?_, o ++ o', ?_, fun x hx => ?_⟩
  · obtain ⟨hlive', hended⟩ := h'.live hlive
    exact ⟨(h.live hlive').1, hended⟩
  · rw [ho', ho, List.append_assoc]
  · rcases List.mem_append.1 hx with hx | hx
    · exact hall x hx
    · rw [← h.iss, ← h.nxt]
      exact hall' x hx

theorem aside_emit
    {o : TcpOutput}
    (ho : AsideOutput c.tcb.snd.iss c.tcb.rcv.nxt o) :
    Aside c (c.emit o) :=
  ⟨rfl, rfl, fun hlive => ⟨hlive, SameRecv.refl _⟩, [o], rfl, by simpa using ho⟩

theorem aside_notif
    (c : Tsm) (n : TestNotif) :
    Aside c (c.tcpNotif n) :=
  aside_emit trivial

/-- A control packet without a SYN. -/
theorem aside_ctrl
    (c : Tsm) (sseq : U32) {flags : TcpFlags}
    (hflags : flags.syn = false) :
    Aside c (c.tcpSendCtrlPktWithSseq sseq flags) := by
  refine aside_emit ⟨fun hsyn => ?_, rfl⟩
  rw [hflags] at hsyn
  cases hsyn

/-- A control packet with the initial sequence number. -/
theorem aside_ctrlIss
    (c : Tsm) (flags : TcpFlags) :
    Aside c (c.tcpSendCtrlPktUseIss flags) :=
  aside_emit ⟨fun _ => ⟨rfl, rfl⟩, rfl⟩

theorem aside_ack
    (c : Tsm) :
    Aside c c.tcpSendAckPkt :=
  aside_ctrl c _ rfl

theorem aside_fail
    (c : Tsm) (e : Errno) :
    Aside c (c.fail e) :=
  ⟨rfl, rfl, fun hlive => ⟨hlive, SameRecv.refl _⟩, [], by simp, by simp⟩

theorem aside_onTcb
    (hiss : (f c.tcb).snd.iss = c.tcb.snd.iss)
    (hlive : (f c.tcb).inHtable = c.tcb.inHtable)
    (hsame : SameRecv c.tcb (f c.tcb)) :
    Aside c (c.onTcb f) :=
  ⟨hiss, hsame.nxt, fun h => ⟨hlive.symm.trans h, hsame⟩, [], by simp, by simp⟩

theorem aside_schedule
    (cfg : TcpConfig) (c : Tsm) :
    Aside c (c.onTcb (tsmScheduleRetransmission cfg)) := by
  refine aside_onTcb ?_ ?_ ?_ <;> rw [tsmScheduleRetransmission_eq]
  exact ⟨rfl, rfl, rfl, rfl, rfl⟩

theorem aside_slowSet
    (cfg : TcpConfig) (timeout : U32) (c : Tsm) :
    Aside c (c.onTcb (tcpTimerSlowSet cfg timeout)) := by
  refine aside_onTcb ?_ ?_ ?_ <;> rw [tcpTimerSlowSet_eq]
  exact ⟨rfl, rfl, rfl, rfl, rfl⟩

theorem aside_setState
    {s : TcpState}
    (hphase : c.tcb.inHtable = true → phase s = phase c.tcb.state) :
    Aside c (setState s c) :=
  ⟨rfl, rfl, fun hlive => ⟨hlive, hphase hlive, rfl, rfl, rfl, rfl⟩, [.enter s], rfl, by
    simp [AsideOutput]⟩

theorem ends_setState
    {s : TcpState}
    (hphase : phase s = .ended) :
    Ends c (setState s c) :=
  ⟨rfl, rfl, fun hlive => ⟨hlive, hphase⟩, [.enter s], rfl, by simp [AsideOutput]⟩

/-- What follows a step that stops the reading. -/
theorem Ends.aside
    (h : Ends c c')
    (h' : Aside c' c'') :
    Ends c c'' := by
  obtain ⟨o, ho, hall⟩ := h.out
  obtain ⟨o', ho', hall'⟩ := h'.out
  refine ⟨h'.iss.trans h.iss, h'.nxt.trans h.nxt, fun hlive => ?_, o ++ o', ?_, fun x hx => ?_⟩
  · obtain ⟨hlive', hsame⟩ := h'.live hlive
    obtain ⟨hlive'', hended⟩ := h.live hlive'
    exact ⟨hlive'', hsame.phase.trans hended⟩
  · rw [ho', ho, List.append_assoc]
  · rcases List.mem_append.1 hx with hx | hx
    · exact hall x hx
    · rw [← h.iss, ← h.nxt]
      exact hall' x hx

/-- A control block that is closed has no receiving half. -/
theorem aside_silentClose
    (c : Tsm) :
    Aside c (tcpSilentClose c) := by
  have hdead := (tcpSilentClose_dead c).1
  refine ⟨?_, ?_, fun hlive => ?_, ?_⟩
  · unfold tcpSilentClose
    simp only
    split <;> rfl
  · unfold tcpSilentClose
    simp only
    split <;> rfl
  · rw [hdead] at hlive
    cases hlive
  · unfold tcpSilentClose
    simp only
    split
    · exact ⟨[], by simp, by simp⟩
    · refine ⟨_, rfl, fun x hx => ?_⟩
      rw [List.mem_singleton] at hx
      subst hx
      exact ⟨(fun hsyn => by cases hsyn), rfl⟩

/-- Closing is a part aside, whatever was the state. -/
theorem aside_enterClosed
    (c : Tsm) :
    Aside c (enterClosed c) := by
  have hdead := (tcpSilentClose_dead ((setState .closed c).tcpNotif .sessClosed)).1
  obtain ⟨o, ho, hall⟩ := (aside_silentClose ((setState .closed c).tcpNotif .sessClosed)).out
  refine ⟨(aside_silentClose _).iss, (aside_silentClose _).nxt, fun hlive => ?_,
    [.enter .closed, .notif .sessClosed] ++ o, ?_, fun x hx => ?_⟩
  · unfold enterClosed at hlive
    rw [hdead] at hlive
    cases hlive
  · unfold enterClosed
    rw [ho]
    simp [setState]
  · rcases List.mem_append.1 hx with hx | hx
    · simp only [List.mem_cons, List.not_mem_nil, or_false] at hx
      rcases hx with rfl | rfl <;> trivial
    · exact hall x hx

theorem aside_notifyAndClose
    (c : Tsm) :
    Aside c (notifyAndClose c) :=
  (aside_notif c _).trans (aside_enterClosed _)

theorem aside_sendFin
    (c : Tsm) :
    Aside c (sendFin c) :=
  (aside_ctrl c c.tcb.snd.nxt rfl).trans (aside_onTcb rfl rfl ⟨rfl, rfl, rfl, rfl, rfl⟩)

theorem aside_enterFinWaitI
    (hphase : phase c.tcb.state = .reading) :
    Aside c (enterFinWaitI cfg c) :=
  (aside_setState (s := .finWaitI) fun _ => hphase.symm).trans ((aside_sendFin _).trans
    ((aside_schedule cfg _).trans (aside_slowSet cfg _ _)))

theorem aside_enterFinWaitII
    (hphase : c.tcb.inHtable = true → phase c.tcb.state = .reading) :
    Aside c (enterFinWaitII cfg c) :=
  (aside_setState (s := .finWaitII) fun hlive => (hphase hlive).symm).trans (aside_slowSet cfg _ _)

theorem ends_enterCloseWait
    (cfg : TcpConfig) (c : Tsm) :
    Ends c (enterCloseWait cfg c) :=
  ((ends_setState rfl).aside (aside_sendFin _)).aside
    ((aside_setState (s := .lastAck) fun _ => rfl).trans (aside_schedule cfg _))

theorem ends_enterClosing
    (cfg : TcpConfig) (c : Tsm) :
    Ends c (enterClosing cfg c) :=
  (ends_setState rfl).aside (aside_schedule cfg _)

theorem ends_enterTimeWait
    (cfg : TcpConfig) (c : Tsm) :
    Ends c (enterTimeWait cfg c) := by
  have hcancel : Ends c
      ((setState .timeWait c).onTcb (tcpTimerSlowCancel ∘ tcpTimerRtoCancel)) :=
    (ends_setState rfl).aside (aside_onTcb rfl rfl ⟨rfl, rfl, rfl, rfl, rfl⟩)
  unfold enterTimeWait
  simp only
  split
  · exact hcancel.aside (aside_enterClosed _)
  · exact hcancel.aside (aside_slowSet cfg _ _)

theorem aside_rstReceived
    (c : Tsm) :
    Aside c (rstReceived c) :=
  aside_onTcb rfl rfl ⟨rfl, rfl, rfl, rfl, rfl⟩

theorem aside_notifyWinUnavail
    (full : Bool) (c : Tsm) :
    Aside c (notifyWinUnavail full c) := by
  unfold notifyWinUnavail
  split
  · exact aside_notif c _
  · exact Aside.refl c

/-- The clean-up of the queue concerns the sending half. -/
theorem aside_cleanup
    (c : Tsm) (segAck : U32) :
    Aside c (tsmCleanupRetransQueu c segAck) := by
  have hcleaned : Aside c
      (c.onTcb (cleanedTcb · segAck (segDIFF segAck c.tcb.snd.una))) :=
    aside_onTcb rfl rfl ⟨rfl, rfl, rfl, rfl, rfl⟩
  simp only [tsmCleanupRetransQueu]
  split
  · exact Aside.refl c
  · split
    · exact Aside.refl c
    · split
      · exact hcleaned.trans (aside_notif _ _)
      · exact hcleaned

theorem aside_ackArrived
    (pcb : Pcb) (finSent : Bool) (c : Tsm) :
    Aside c (ackArrived pcb finSent c) :=
  ackArrived_elim (Aside.refl c) (fun _ _ _ => aside_cleanup c _) fun _ _ _ => aside_cleanup c _

theorem aside_acked
    (pcb : Pcb) (finSent : Bool) (c : Tsm) :
    Aside c (acked pcb finSent c) := by
  refine (aside_ackArrived pcb finSent c).trans (aside_onTcb ?_ ?_ ?_) <;>
    (unfold updateSndWnd; split)
  all_goals first
    | rfl
    | exact ⟨rfl, rfl, rfl, rfl, rfl⟩

end Parts

section Sending

variable {env : TsmEnv} {c : Tsm}

theorem aside_dataSent
    (c : Tsm) (n : U32) :
    Aside c { c with dataSent := n } :=
  ⟨rfl, rfl, fun hlive => ⟨hlive, SameRecv.refl _⟩, [], by simp, by simp⟩

theorem aside_sendSegment
    {i segDataLen dataOffset : Nat} {segs : Chain} {sseq : U32} {flags : TcpFlags} {c' : Tsm}
    (hflags : flags.syn = false)
    (h : tcpDataSendSegment env i c segs segDataLen dataOffset sseq flags = some c') :
    Aside c c' := by
  unfold tcpDataSendSegment at h
  split at h
  · cases h
  · split at h
    · obtain rfl := Option.some.inj h
      refine aside_emit ⟨fun hsyn => ?_, rfl⟩
      simp only [hflags] at hsyn
      cases hsyn
    · cases h

theorem aside_advanceNxt
    (c : Tsm) (sseq : U32) (segDataLen : Nat) :
    Aside c (advanceNxt c sseq segDataLen) := by
  unfold advanceNxt
  split
  · exact ⟨rfl, rfl, fun hlive => ⟨hlive, rfl, rfl, rfl, rfl, rfl⟩, [], by simp, by simp⟩
  · exact Aside.refl c

/-- Data segments, by induction on the segments that one call may send. -/
theorem aside_sendSegmentsLoop
    {fuel i dataLen dataOffset : Nat} {segs : Chain} {sseq : U32} {flags : TcpFlags}
    (hflags : flags.syn = false) :
    Aside c (sendSegmentsLoop env flags fuel i c segs dataLen dataOffset sseq).1 := by
  induction fuel generalizing i c segs dataLen dataOffset sseq with
  | zero =>
      exact Aside.refl c
  | succ fuel ih =>
      rw [sendSegmentsLoop]
      split
      · exact Aside.refl c
      · simp only
        split
        · exact Aside.refl c
        · rename_i c' hsent
          exact (aside_sendSegment hflags hsent).trans ((aside_advanceNxt c' _ _).trans ih)

theorem aside_storeSend
    (cfg : TcpConfig) (c : Tsm) (data : Chain) :
    Aside c { c with tcb := (tcpDataStoreSend cfg c.tcb data).1 } := by
  unfold tcpDataStoreSend
  split
  · exact Aside.refl c
  · exact ⟨rfl, rfl, fun hlive => ⟨hlive, rfl, rfl, rfl, rfl, rfl⟩, [], by simp, by simp⟩

theorem aside_tcpDataSend
    (env : TsmEnv) (c : Tsm) (data : TsmDataArg) :
    Aside c (tcpDataSend env c data) := by
  have hstored := (aside_storeSend env.cfg c data.tdaMbuf).trans (aside_dataSent _ 0)
  simp only [tcpDataSend]
  split
  · exact hstored.trans (aside_fail _ _)
  · split <;> split
    · exact hstored.trans (aside_dataSent _ _)
    · exact (hstored.trans (aside_sendSegmentsLoop rfl)).trans (aside_dataSent _ _)
    · exact hstored.trans (aside_fail _ _)
    · exact (hstored.trans (aside_sendSegmentsLoop rfl)).trans (aside_fail _ _)

theorem aside_tsmRetransData
    (env : TsmEnv) (c : Tsm) :
    Aside c (tsmRetransData env c) := by
  refine Aside.trans ?_ (aside_notifyWinUnavail _ _)
  unfold tcpDataRetrans
  split
  · exact Aside.refl c
  · exact aside_sendSegmentsLoop rfl

theorem aside_tsmSend
    (env : TsmEnv) (c : Tsm) (data : TsmDataArg) :
    Aside c (tsmSend env c data) := by
  have hsend : Aside c (tsmSendData env c data) :=
    (aside_tcpDataSend env c data).trans
      ((aside_schedule env.cfg _).trans (aside_notifyWinUnavail _ _))
  unfold tsmSend
  split
  · exact hsend
  · exact hsend
  all_goals exact aside_fail c _

/-- A request to close leads from one state that reads to another, or closes. -/
theorem aside_tsmClose
    (cfg : TcpConfig) (c : Tsm) :
    Aside c (tsmClose cfg c) := by
  have hfin : phase c.tcb.state = .reading →
      Aside c (enterFinWaitI cfg (c.tcpNotif .sessClosing)) :=
    fun hphase => (aside_notif c _).trans (aside_enterFinWaitI hphase)
  unfold tsmClose
  split
  · exact aside_enterClosed c
  · exact aside_notifyAndClose c
  · exact aside_notifyAndClose c
  · rename_i hstate
    exact hfin (by rw [hstate]; rfl)
  · rename_i hstate
    exact hfin (by rw [hstate]; rfl)
  · exact Aside.refl c
  all_goals exact aside_fail c _

theorem aside_retransOrClose
    {limit : BitVec 8} {giveUp resend : Tsm → Tsm}
    (hgive : Aside c (giveUp c))
    (hresend : Aside c (resend c)) :
    Aside c (retransOrClose env limit giveUp resend c) := by
  unfold retransOrClose
  split
  · exact hgive
  · exact hresend.trans (aside_schedule env.cfg _)

theorem aside_resendFin
    (c : Tsm) :
    Aside c (resendFin c) :=
  aside_ctrl c _ rfl

theorem aside_rtoTimeout
    (env : TsmEnv) (c : Tsm) :
    Aside c (tsmRetransmissionTimeout env c) := by
  have hcancel : Aside c (enterClosed (c.onTcb tcpTimerSlowCancel)) :=
    (aside_onTcb rfl rfl ⟨rfl, rfl, rfl, rfl, rfl⟩).trans (aside_enterClosed _)
  unfold tsmRetransmissionTimeout
  split
  · exact aside_retransOrClose (aside_notifyAndClose c) (aside_ctrlIss c _)
  · exact aside_retransOrClose (aside_notifyAndClose c) (aside_ctrlIss c _)
  · exact aside_retransOrClose (aside_notifyAndClose c) (aside_tsmRetransData env c)
  · exact aside_retransOrClose hcancel (aside_resendFin c)
  · exact aside_retransOrClose (aside_enterClosed c) (aside_resendFin c)
  · exact aside_retransOrClose (aside_enterClosed c) (aside_resendFin c)
  · split
    · exact aside_enterClosed c
    · exact (aside_tsmRetransData env c).trans (aside_resendFin _)
  all_goals exact Aside.refl c

theorem aside_rtoTimer
    (env : TsmEnv) (c : Tsm) :
    Aside c (tcpHandleRetransTo env c) :=
  Aside.trans (aside_onTcb rfl rfl ⟨rfl, rfl, rfl, rfl, rfl⟩) (aside_rtoTimeout env _)

theorem aside_slowTimer
    (env : TsmEnv) (c : Tsm) :
    Aside c (tcpHandleSlowTo env c) := by
  have hfired : Aside c (c.onTcb fun tcb => { tcb with onSlowList := false }) :=
    aside_onTcb rfl rfl ⟨rfl, rfl, rfl, rfl, rfl⟩
  have hclose : ∀ s, Aside c
      (closeIn s (c.onTcb fun tcb => { tcb with onSlowList := false })) := by
    intro s
    unfold closeIn
    split
    · exact hfired.trans (aside_enterClosed _)
    · exact hfired
  unfold tcpHandleSlowTo
  simp only
  split
  · exact hclose _
  · exact hclose _
  · exact hclose _
  all_goals exact hfired

end Sending

section Text

variable {env : TsmEnv} {pcb : Pcb} {c : Tsm}

theorem aside_countMissingSeq
    (wasMissing : Bool) (c : Tsm) :
    Aside c (countMissingSeq wasMissing c) := by
  unfold countMissingSeq
  simp only
  split
  · exact aside_emit trivial
  · split
    · exact aside_emit trivial
    · exact Aside.refl c

/-- The call of `tcp_data_handle` for the text of a segment. -/
def textCall (env : TsmEnv) (pcb : Pcb) (c : Tsm) : HandleResult :=
  tcpDataHandle (urgTcb pcb c.tcb) pcb.mbuf pcb.sentSeq pcb.l5Len env.answer

/-- Without text there is nothing to receive. -/
theorem receiveText_none
    (hlen : pcb.l5Len = 0) :
    receiveText env pcb c = c ∧ receiveAndAck env pcb c = c := by
  rw [receiveText, receiveAndAck, if_pos hlen, if_pos hlen]
  exact ⟨rfl, rfl⟩

/-- Receiving text is the call, and what the callback and the gauge add to it. -/
theorem aside_receiveText
    (hlen : pcb.l5Len ≠ 0) :
    Aside (handled c (textCall env pcb c)) (receiveText env pcb c) := by
  rw [receiveText, if_neg hlen]
  simp only [tsmHandleIncoming]
  split
  · exact (aside_tsmClose env.cfg _).trans (aside_countMissingSeq _ _)
  · exact aside_countMissingSeq _ _

theorem aside_receiveAndAck
    (hlen : pcb.l5Len ≠ 0) :
    Aside (handled c (textCall env pcb c)) (receiveAndAck env pcb c) := by
  have htext : Aside (handled c (textCall env pcb c))
      (tsmHandleIncoming env pcb c pcb.sentSeq pcb.l5Len).1 := by
    have htext : Aside _ (receiveText env pcb c) := aside_receiveText hlen
    rwa [receiveText, if_neg hlen] at htext
  rw [receiveAndAck, if_neg hlen]
  simp only
  split
  · exact htext.trans (aside_ack _)
  · exact htext

/-- A control block that reads is still in use after the text. -/
theorem reads_receiveText
    (hlive : c.tcb.inHtable = true)
    (hphase : phase c.tcb.state = .reading) :
    (receiveText env pcb c).tcb.inHtable = true ∧
      (receiveAndAck env pcb c).tcb.inHtable = true := by
  have hdone : ∀ c', TextDone env pcb c c' → c'.tcb.inHtable = true := by
    intro c' hdone
    cases hdone with
    | kept h =>
        exact h.same.inHtable.trans hlive
    | @closed c₁ _ hbefore hafter =>
        rw [hafter.same.inHtable]
        have hlive₁ := hbefore.same.inHtable.trans hlive
        have hphase₁ : phase c₁.tcb.state = .reading := by
          rw [hbefore.same.state]
          exact hphase
        have hfin : (enterFinWaitI env.cfg (c₁.tcpNotif .sessClosing)).tcb.inHtable = true := by
          rw [enterFinWaitI, onTcb_tcb, Function.comp_apply, tcpTimerSlowSet_eq,
            tsmScheduleRetransmission_eq]
          exact hlive₁
        unfold tsmClose
        cases hstate : c₁.tcb.state with
        | synRecv | established =>
            exact hfin
        | finWaitI | finWaitII =>
            exact hlive₁
        | init | listen | synSent | closeWait | lastAck | closing | timeWait | closed =>
            rw [hstate] at hphase₁
            cases hphase₁
  exact ⟨hdone _ (receiveText_done env pcb c), hdone _ (receiveAndAck_done env pcb c)⟩

/-- What the application has taken in the call. -/
theorem consumedIn_handled
    (c : Tsm) (r : HandleResult) :
    consumedIn (handled c r).out = consumedIn c.out ++ r.calls.flatMap DeliverCall.bytes := by
  have hasserted : consumedIn (if r.asserted then [.asserted] else []) = [] := by
    split <;> rfl
  rw [handled, consumedIn_append, consumedIn_append, consumedIn_deliver, hasserted,
    List.append_nil]

theorem packets_handled
    (c : Tsm) (r : HandleResult) :
    packets (handled c r).out = packets c.out := by
  have hcalls : packets (r.calls.map .deliver) = [] := by
    induction r.calls with
    | nil =>
        rfl
    | cons call calls ih =>
        exact ih
  have hasserted : packets (if r.asserted then [.asserted] else []) = [] := by
    split <;> rfl
  rw [handled, packets_append, packets_append, hcalls, hasserted, List.append_nil,
    List.append_nil]

end Text

end ReceivePaths
end Warp17
