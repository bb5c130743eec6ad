import Warp17.SendInvariants

/-!
# The numbers of transmitted segments

Data and FINs are numbered, and `SND.NXT` should be above every number that was ever put
into a segment.  New data and FINs are numbered from `SND.NXT`, which then moves over them.
A retransmission starts again at `SND.UNA`, and moves `SND.NXT` only with a segment that
starts exactly there: when the window has grown since the bytes were first sent, one of its
segments may begin below `SND.NXT` and end above it, and the bytes above it are not counted.
`KeepsBoundaries` leaves out the timeouts at which this happens.

A transition is measured from the `SND.UNA` that it begins with (`Extends`): `SND.UNA` stays
at or below `SND.NXT`, `SND.NXT` never moves back, and what is sent ends at or below it.

**Results**
- `followNxt_segSizes`: `SND.NXT` follows a retransmission without a straddling segment.
- `extends_step`: every transition without one covers what it sends.
- `sent_below_nxt`: in runs without one, an ACK of anything that was sent is never above
  `SND.NXT`.
-/

namespace Warp17
namespace TransmittedNumbers

open GuardedRuns SequenceComparison MbufChains ControlBlock SendQueue RetransmissionQueue
open TcpStateMachine TransitionPaths ConnectionRuns SendInvariants

/-- How many numbers the data and the FIN of a packet take. -/
def pktNumbers (p : TxPkt) : Nat :=
  p.data.length + if p.flags.fin then 1 else 0

section Measure

variable {u : U32} {low high : Nat}

/-- A part of a transition that neither moves the send pointers nor sends a number. -/
structure Silent (c c' : Tsm) : Prop where
  una : c'.tcb.snd.una = c.tcb.snd.una
  nxt : c'.tcb.snd.nxt = c.tcb.snd.nxt
  out : ∃ ps, packets c'.out = packets c.out ++ ps ∧ ∀ p ∈ ps, pktNumbers p = 0

theorem Silent.trans
    {c c' c'' : Tsm}
    (h : Silent c c')
    (h' : Silent c' c'') :
    Silent c c'' := by
  obtain ⟨ps, hps, hzero⟩ := h.out
  obtain ⟨ps', hps', hzero'⟩ := h'.out
  refine ⟨h'.una.trans h.una, h'.nxt.trans h.nxt, ps ++ ps', ?_, ?_⟩
  · rw [hps', hps, List.append_assoc]
  · intro p hp
    rcases List.mem_append.1 hp with hp | hp
    · exact hzero p hp
    · exact hzero' p hp

theorem silent_of_quiet
    {c c' : Tsm}
    (h : Quiet c c') :
    Silent c c' := by
  obtain ⟨o, ho, hquiet⟩ := h.out
  refine ⟨by rw [h.same.snd], by rw [h.same.snd], packets o, ?_, ?_⟩
  · rw [ho, packets_append]
  · intro p hp
    obtain ⟨x, hx, heq⟩ := List.mem_filterMap.1 hp
    have hq := hquiet x hx
    cases x with
    | pkt p' =>
        cases heq
        rw [pktNumbers, hq.1, hq.2]
        rfl
    | notif n | deliver call | enter s | asserted | missingSeq more =>
        cases heq

/-- Changing what is not a send pointer, and telling the test case, sends nothing. -/
theorem silent_onTcb
    {c : Tsm} {f : Tcb → Tcb}
    (huna : (f c.tcb).snd.una = c.tcb.snd.una)
    (hnxt : (f c.tcb).snd.nxt = c.tcb.snd.nxt) :
    Silent c (c.onTcb f) :=
  ⟨huna, hnxt, [], by simp, by simp⟩

theorem silent_notif
    (c : Tsm) (n : TestNotif) :
    Silent c (c.tcpNotif n) :=
  ⟨rfl, rfl, [], by simp [packets], by simp⟩

theorem silent_notifyWinUnavail
    (full : Bool) (c : Tsm) :
    Silent c (notifyWinUnavail full c) := by
  unfold notifyWinUnavail
  split
  · exact silent_notif c _
  · exact silent_of_quiet (Quiet.refl c)

theorem silent_setState
    (s : TcpState) (c : Tsm) :
    Silent c (setState s c) :=
  ⟨rfl, rfl, [], by simp [setState, packets], by simp⟩

theorem silent_schedule
    (cfg : TcpConfig) (c : Tsm) :
    Silent c (c.onTcb (tsmScheduleRetransmission cfg)) :=
  silent_onTcb (by rw [tsmScheduleRetransmission_eq]) (by rw [tsmScheduleRetransmission_eq])

theorem silent_slowSet
    (cfg : TcpConfig) (timeout : U32) (c : Tsm) :
    Silent c (c.onTcb (tcpTimerSlowSet cfg timeout)) :=
  silent_onTcb (by rw [tcpTimerSlowSet_eq]) (by rw [tcpTimerSlowSet_eq])

/-- Closing sends a RST at most. -/
theorem silent_close
    (c : Tsm) :
    Silent c (tcpSilentClose c) := by
  unfold tcpSilentClose
  simp only
  split
  · exact silent_onTcb rfl rfl
  · exact (silent_of_quiet (quiet_ctrl c c.tcb.snd.nxt rfl)).trans (silent_onTcb rfl rfl)

theorem silent_enterClosed
    (c : Tsm) :
    Silent c (enterClosed c) :=
  (silent_setState _ c).trans ((silent_notif _ _).trans (silent_close _))

theorem silent_notifyAndClose
    (c : Tsm) :
    Silent c (notifyAndClose c) :=
  (silent_notif c _).trans (silent_enterClosed _)

theorem silent_enterClosing
    (cfg : TcpConfig) (c : Tsm) :
    Silent c (enterClosing cfg c) :=
  (silent_setState _ c).trans (silent_schedule cfg _)

theorem silent_enterFinWaitII
    (cfg : TcpConfig) (c : Tsm) :
    Silent c (enterFinWaitII cfg c) :=
  (silent_setState _ c).trans (silent_slowSet cfg _ _)

theorem silent_enterTimeWait
    (cfg : TcpConfig) (c : Tsm) :
    Silent c (enterTimeWait cfg c) := by
  have hcancel : Silent c
      ((setState .timeWait c).onTcb (tcpTimerSlowCancel ∘ tcpTimerRtoCancel)) :=
    (silent_setState _ c).trans (silent_onTcb rfl rfl)
  unfold enterTimeWait
  simp only
  split
  · exact hcancel.trans (silent_enterClosed _)
  · exact hcancel.trans (silent_slowSet cfg _ _)

theorem silent_enterSynRecv
    (cfg : TcpConfig) (c : Tsm) :
    Silent c (enterSynRecv cfg c) :=
  (silent_setState _ c).trans ((silent_notif _ _).trans (silent_schedule cfg _))

/--
The send pointers, measured from `u`, in the middle of a transition; `low` is where `SND.NXT`
was, and `high` bounds where it is.
-/
structure Extends (u : U32) (low high : Nat) (c : Tsm) : Prop where
  order : (c.tcb.snd.una - u).toNat + flight c.tcb = (c.tcb.snd.nxt - u).toNat
  grown : low ≤ (c.tcb.snd.nxt - u).toNat
  bounded : (c.tcb.snd.nxt - u).toNat ≤ high
  below :
    ∀ p ∈ packets c.out, 0 < pktNumbers p →
      -1 ≤ (p.seq - u).toInt ∧
        (p.seq - u).toInt + pktNumbers p ≤ ((c.tcb.snd.nxt - u).toNat : Int)

theorem Extends.mono
    {high' : Nat} {c : Tsm}
    (h : Extends u low high c)
    (hle : high ≤ high') :
    Extends u low high' c :=
  ⟨h.order, h.grown, h.bounded.trans hle, h.below⟩

theorem extends_start
    {tcb : Tcb}
    (hhigh : flight tcb ≤ high) :
    Extends tcb.snd.una (flight tcb) high (Tsm.start tcb) := by
  refine ⟨?_, le_rfl, hhigh, by simp [Tsm.start]⟩
  simp only [Tsm.start, sub_self]
  exact Nat.zero_add _

theorem Extends.silent
    {c c' : Tsm}
    (h : Extends u low high c)
    (hs : Silent c c') :
    Extends u low high c' := by
  obtain ⟨ps, hps, hzero⟩ := hs.out
  have hflight : flight c'.tcb = flight c.tcb := by
    rw [flight, flight, hs.una, hs.nxt]
  refine ⟨?_, ?_, ?_, ?_⟩
  · rw [hs.una, hs.nxt, hflight]
    exact h.order
  · rw [hs.nxt]
    exact h.grown
  · rw [hs.nxt]
    exact h.bounded
  · rw [hs.nxt, hps]
    intro p hp hpos
    rcases List.mem_append.1 hp with hp | hp
    · exact h.below p hp hpos
    · rw [hzero p hp] at hpos
      cases hpos

/-- Small distances are the same as words and as integers. -/
theorem toInt_sub_of_small
    {a b : U32}
    (h : (a - b).toNat < 2 ^ 31) :
    (a - b).toInt = (a - b).toNat :=
  BitVec.toInt_eq_toNat_of_lt (by omega)

theorem ofInt_sub
    (x y : Int) :
    BitVec.ofInt 32 (x - y) = BitVec.ofInt 32 x - BitVec.ofInt 32 y := by
  rw [Int.sub_eq_add_neg, BitVec.ofInt_add, BitVec.ofInt_neg, ← sub_eq_add_neg]

theorem toNat_succ_sub
    {a : U32}
    (h : (a - u).toNat + 1 < 2 ^ 32) :
    (a + 1 - u).toNat = (a - u).toNat + 1 := by
  have hsub : a + 1 - u = a - u + 1 := by
    abel
  rw [hsub, BitVec.toNat_add]
  exact Nat.mod_eq_of_lt h

/-- A FIN is sent with the number of `SND.NXT`, which then is above it. -/
theorem Extends.sendFin
    {c : Tsm}
    (h : Extends u low high c)
    (hhigh : high + 1 < 2 ^ 31) :
    Extends u low (high + 1) (sendFin c) := by
  have hbound := h.bounded
  have horder := h.order
  have hgrown := h.grown
  have hnxt : ((TcpStateMachine.sendFin c).tcb.snd.nxt - u).toNat =
      (c.tcb.snd.nxt - u).toNat + 1 :=
    @toNat_succ_sub u c.tcb.snd.nxt (by omega)
  have hflight : flight (TcpStateMachine.sendFin c).tcb = flight c.tcb + 1 :=
    flight_succ rfl rfl (by omega)
  refine ⟨?_, by rw [hnxt]; omega, by rw [hnxt]; omega, ?_⟩
  · rw [hnxt, hflight]
    change (c.tcb.snd.una - u).toNat + (flight c.tcb + 1) = _
    omega
  · rw [hnxt]
    intro p hp hpos
    have hmem : p ∈ packets c.out ∨
        p = { seq := c.tcb.snd.nxt, ack := c.tcb.rcv.nxt,
              flags := { fin := true, ack := true },
              wnd := c.tcb.rcv.wnd.truncate 16, data := [] } := by
      simpa [TcpStateMachine.sendFin, Tsm.tcpSendCtrlPkt, Tsm.tcpSendCtrlPktWithSseq,
        packets] using hp
    rcases hmem with hmem | rfl
    · obtain ⟨hlow, hle⟩ := h.below p hmem hpos
      exact ⟨hlow, by omega⟩
    · simp only [pktNumbers, List.length_nil, if_true]
      rw [toInt_sub_of_small (by omega)]
      omega

theorem Extends.enterFinWaitI
    {cfg : TcpConfig} {c : Tsm}
    (h : Extends u low high c)
    (hhigh : high + 1 < 2 ^ 31) :
    Extends u low (high + 1) (enterFinWaitI cfg c) := by
  have hfin := (h.silent (silent_setState .finWaitI c)).sendFin hhigh
  exact (hfin.silent (silent_schedule cfg _)).silent (silent_slowSet cfg _ _)

theorem Extends.enterCloseWait
    {cfg : TcpConfig} {c : Tsm}
    (h : Extends u low high c)
    (hhigh : high + 1 < 2 ^ 31) :
    Extends u low (high + 1) (enterCloseWait cfg c) := by
  have hfin := (h.silent (silent_setState .closeWait c)).sendFin hhigh
  exact (hfin.silent (silent_setState .lastAck _)).silent (silent_schedule cfg _)

/-- A close sends one FIN at most, whatever the state. -/
theorem Extends.tsmClose
    {cfg : TcpConfig} {c : Tsm}
    (h : Extends u low high c)
    (hhigh : high + 1 < 2 ^ 31) :
    Extends u low (high + 1) (tsmClose cfg c) := by
  have hkeep : Extends u low (high + 1) (c.fail .enotconn) :=
    (h.silent (silent_of_quiet (quiet_fail c _))).mono (Nat.le_succ high)
  cases hstate : c.tcb.state with
  | init =>
      simp only [TcpStateMachine.tsmClose, hstate]
      exact (h.silent (silent_enterClosed c)).mono (Nat.le_succ high)
  | listen | synSent =>
      simp only [TcpStateMachine.tsmClose, hstate]
      exact (h.silent (silent_notifyAndClose c)).mono (Nat.le_succ high)
  | synRecv | established =>
      simp only [TcpStateMachine.tsmClose, hstate]
      exact (h.silent (silent_notif c _)).enterFinWaitI hhigh
  | closeWait =>
      simp only [TcpStateMachine.tsmClose, hstate]
      exact h.mono (Nat.le_succ high)
  | finWaitI | finWaitII | lastAck | closing | timeWait | closed =>
      simpa only [TcpStateMachine.tsmClose, hstate] using hkeep

theorem Extends.textDone
    {env : TsmEnv} {pcb : Pcb} {c c' : Tsm}
    (h : Extends u low high c)
    (hdone : TextDone env pcb c c')
    (hhigh : high + 1 < 2 ^ 31) :
    Extends u low (high + 1) c' := by
  cases hdone with
  | kept hquiet =>
      exact (h.silent (silent_of_quiet hquiet)).mono (Nat.le_succ high)
  | closed hasks hbefore hafter =>
      exact ((h.silent (silent_of_quiet hbefore)).tsmClose hhigh).silent
        (silent_of_quiet hafter)

/-- Counting a number as acknowledged. -/
theorem Extends.incUna
    {c : Tsm}
    (h : Extends u low high c)
    (hne : c.tcb.snd.una ≠ c.tcb.snd.nxt) :
    Extends u low high (incUna c) := by
  have horder := h.order
  have hdec := flight_incUna hne
  have huna : ((TcpStateMachine.incUna c).tcb.snd.una - u).toNat =
      (c.tcb.snd.una - u).toNat + 1 :=
    @toNat_succ_sub u c.tcb.snd.una (by omega)
  refine ⟨?_, h.grown, h.bounded, h.below⟩
  rw [huna]
  change _ = (c.tcb.snd.nxt - u).toNat
  omega

/-- An acknowledgement moves `SND.UNA` up to `SND.NXT` at most. -/
theorem Extends.ackArrived
    {cfg : TcpConfig} {c : Tsm}
    (pcb : Pcb) (finSent : Bool)
    (h : Extends u low high c)
    (hcfg : ConfigOk cfg)
    (hqueue : QueueOk cfg.sockopt.tcpoWinSize.toNat c.tcb.retrans)
    (hhigh : high < 2 ^ 31) :
    Extends u low high (ackArrived pcb finSent c) := by
  rcases ackArrived_spec pcb finSent hcfg hqueue with heq | ⟨segAck, hacc⟩
  · rw [heq]
    exact h
  · have hbound := h.bounded
    have horder := h.order
    have hflight := hacc.flight_eq
    have hsnd := hacc.clean.cleaned.snd
    have hnxt : (TcpStateMachine.ackArrived pcb finSent c).tcb.snd.nxt = c.tcb.snd.nxt := by
      rw [hsnd]
    have huna : ((TcpStateMachine.ackArrived pcb finSent c).tcb.snd.una - u).toNat =
        (c.tcb.snd.una - u).toNat + (segAck - c.tcb.snd.una).toNat := by
      have hsub : segAck - u = c.tcb.snd.una - u + (segAck - c.tcb.snd.una) := by
        abel
      rw [hsnd]
      simp only
      rw [hsub, BitVec.toNat_add, Nat.mod_eq_of_lt (by omega)]
    have hout : packets (TcpStateMachine.ackArrived pcb finSent c).out = packets c.out := by
      rw [hacc.clean.out, packets_append]
      split <;> simp [packets]
    refine ⟨?_, ?_, ?_, ?_⟩
    · rw [huna, hnxt]
      omega
    · rw [hnxt]
      exact h.grown
    · rw [hnxt]
      exact h.bounded
    · rw [hnxt, hout]
      exact h.below

theorem Extends.acked
    {cfg : TcpConfig} {c : Tsm}
    (pcb : Pcb) (finSent : Bool)
    (h : Extends u low high c)
    (hcfg : ConfigOk cfg)
    (hqueue : QueueOk cfg.sockopt.tcpoWinSize.toNat c.tcb.retrans)
    (hhigh : high < 2 ^ 31) :
    Extends u low high (acked pcb finSent c) := by
  refine (h.ackArrived pcb finSent hcfg hqueue hhigh).silent (silent_onTcb ?_ ?_) <;>
    (unfold updateSndWnd; split <;> rfl)

end Measure

section Segments

variable {u : U32} {low high : Nat} {env : TsmEnv} {pcb : Pcb} {c : Tsm}

theorem silent_setSndWnd
    (pcb : Pcb) (c : Tsm) :
    Silent c (c.onTcb (setSndWnd pcb)) :=
  silent_onTcb rfl rfl

theorem synSent_extends
    (huna : c.tcb.snd.una = c.tcb.snd.iss)
    (hnxt : c.tcb.snd.nxt = c.tcb.snd.iss + 1)
    (h : Extends u low high c)
    (hhigh : high + 1 < 2 ^ 31) :
    Extends u low (high + 1) (synSentSegment env pcb c) := by
  have hmono := h.mono (Nat.le_succ high)
  refine synSentSegment_elim huna hnxt (fun c' hq => hmono.silent (silent_of_quiet hq))
    (fun c' hq => (hmono.silent (silent_of_quiet hq)).silent (silent_notifyAndClose c'))
    ?_ ?_
  · rintro - c' hq
    exact (hmono.silent (silent_of_quiet hq)).silent (silent_enterSynRecv env.cfg c')
  · intro c' hq c₁ hdone c₂ hq₂
    have hne : c'.tcb.snd.una ≠ c'.tcb.snd.nxt := by
      rw [hq.same.snd, huna, hnxt]
      bv_omega
    have hacked : Extends u low high (synAcked pcb c') :=
      (((h.silent (silent_of_quiet hq)).incUna hne).silent (silent_setSndWnd pcb _)).silent
        (silent_notif _ _)
    have hestab : Silent c₁ (enterEstablished (c₁.onTcb tcpTimerRtoCancel)) :=
      (silent_onTcb rfl rfl).trans (silent_setState _ _)
    exact ((hacked.textDone hdone hhigh).silent hestab).silent (silent_of_quiet hq₂)

theorem synRecv_extends
    (huna : c.tcb.snd.una = c.tcb.snd.iss)
    (hnxt : c.tcb.snd.nxt = c.tcb.snd.iss + 1)
    (h : Extends u low high c)
    (hhigh : high + 2 < 2 ^ 31) :
    Extends u low (high + 2) (synRecvSegment env pcb c) := by
  have hmono := h.mono (Nat.le_add_right high 2)
  refine synRecvSegment_elim huna hnxt (fun c' hq => hmono.silent (silent_of_quiet hq))
    (fun c' hq => (hmono.silent (silent_of_quiet hq)).silent (silent_notifyAndClose c')) ?_
  rintro - c₀ hc₀ c' hdone
  have hc₀' : Extends u low high c₀ := by
    rcases hc₀ with ⟨-, rfl⟩ | ⟨-, rfl⟩
    · exact h
    · refine h.incUna ?_
      rw [huna, hnxt]
      bv_omega
  have htext := (hc₀'.silent (silent_setSndWnd pcb c₀)).textDone hdone (by omega)
  refine ⟨fun _ => ?_, fun _ => ?_⟩
  · have hestab : Silent c' (enterEstablished (c'.onTcb tcpTimerRtoCancel)) :=
      (silent_onTcb rfl rfl).trans (silent_setState _ _)
    exact (htext.silent hestab).mono (by omega)
  · exact (htext.silent (silent_notif c' _)).enterCloseWait hhigh

theorem estab_extends
    (hcfg : ConfigOk env.cfg)
    (hqueue : QueueOk env.cfg.sockopt.tcpoWinSize.toNat c.tcb.retrans)
    (h : Extends u low high c)
    (hhigh : high + 2 < 2 ^ 31) :
    Extends u low (high + 2) (estabSegment env pcb c) := by
  have hmono := h.mono (Nat.le_add_right high 2)
  have hacked := h.acked pcb false hcfg hqueue (by omega)
  refine estabSegment_elim (fun c' hq => hmono.silent (silent_of_quiet hq))
    (fun c' hq => (hmono.silent (silent_of_quiet hq)).silent (silent_notifyAndClose c'))
    ?_ ?_ ?_
  · rintro -
    exact hmono.ackArrived pcb false hcfg hqueue hhigh
  · rintro - c' hdone
    exact (hacked.textDone hdone (by omega)).mono (by omega)
  · rintro - - c' hdone
    exact ((hacked.textDone hdone (by omega)).silent (silent_notif c' _)).enterCloseWait hhigh

theorem finWaitI_extends
    (hcfg : ConfigOk env.cfg)
    (hqueue : QueueOk env.cfg.sockopt.tcpoWinSize.toNat c.tcb.retrans)
    (hstate : (acked pcb true c).tcb.state = .finWaitI)
    (h : Extends u low high c)
    (hhigh : high < 2 ^ 31) :
    Extends u low high (finWaitISegment env pcb c) := by
  have hacked := h.acked pcb true hcfg hqueue hhigh
  have hcancel : ∀ c' : Tsm, Silent c' (c'.onTcb tcpTimerSlowCancel) :=
    fun c' => silent_onTcb rfl rfl
  have hours : ourFinAcked pcb (acked pcb true c).tcb = true →
      Extends u low high (incUna (acked pcb true c)) :=
    fun hours => hacked.incUna (ourFinAcked_flight hours).2
  refine finWaitISegment_elim hstate (fun c' hq => h.silent (silent_of_quiet hq))
    (fun c' hq => ((h.silent (hcancel c)).silent (silent_of_quiet hq)).silent
      (silent_enterClosed c')) ?_ ?_ ?_ ?_ ?_ ?_
  · rintro -
    exact h.ackArrived pcb true hcfg hqueue hhigh
  · rintro - - c' hq
    exact hacked.silent (silent_of_quiet hq)
  · rintro - - - c' hq
    exact ((hacked.silent (silent_of_quiet hq)).silent (hcancel c')).silent
      (silent_enterClosing env.cfg _)
  · rintro - hyes - c' hq
    exact (hours hyes).silent (silent_of_quiet hq)
  · rintro - hyes c' hq
    exact (((hours hyes).silent (silent_of_quiet hq)).silent (hcancel c')).silent
      (silent_enterFinWaitII env.cfg _)
  · rintro - hyes c' hq
    exact (((hours hyes).silent (silent_of_quiet hq)).silent (hcancel c')).silent
      (silent_enterTimeWait env.cfg _)

theorem finWaitII_extends
    (hcfg : ConfigOk env.cfg)
    (hqueue : QueueOk env.cfg.sockopt.tcpoWinSize.toNat c.tcb.retrans)
    (hstate : (acked pcb false c).tcb.state = .finWaitII)
    (h : Extends u low high c)
    (hhigh : high < 2 ^ 31) :
    Extends u low high (finWaitIISegment env pcb c) := by
  have hacked := h.acked pcb false hcfg hqueue hhigh
  have hcancel : ∀ c' : Tsm, Silent c' (c'.onTcb tcpTimerSlowCancel) :=
    fun c' => silent_onTcb rfl rfl
  refine finWaitIISegment_elim hstate (fun c' hq => h.silent (silent_of_quiet hq))
    (fun c' hq => ((h.silent (hcancel c)).silent (silent_of_quiet hq)).silent
      (silent_enterClosed c')) ?_ ?_ ?_
  · rintro -
    exact h.ackArrived pcb false hcfg hqueue hhigh
  · rintro - c' hq
    exact hacked.silent (silent_of_quiet hq)
  · rintro - c' hq c'' hq'
    exact (((hacked.silent (silent_of_quiet hq)).silent (hcancel c')).silent
      (silent_of_quiet hq')).silent (silent_enterTimeWait env.cfg _)

theorem closing_extends
    (hcfg : ConfigOk env.cfg)
    (hqueue : QueueOk env.cfg.sockopt.tcpoWinSize.toNat c.tcb.retrans)
    (h : Extends u low high c)
    (hhigh : high < 2 ^ 31) :
    Extends u low high (closingSegment env pcb c) := by
  have hacked := h.acked pcb true hcfg hqueue hhigh
  refine closingSegment_elim (fun c' hq => h.silent (silent_of_quiet hq))
    (fun c' hq => (h.silent (silent_of_quiet hq)).silent (silent_enterClosed c')) ?_ ?_ ?_
  · rintro -
    exact h.ackArrived pcb true hcfg hqueue hhigh
  · rintro - -
    exact hacked
  · rintro - -
    exact (hacked.silent (silent_onTcb rfl rfl)).silent (silent_enterTimeWait env.cfg _)

theorem timeWait_extends
    (h : Extends u low high c) :
    Extends u low high (timeWaitSegment env pcb c) := by
  refine timeWaitSegment_elim (fun c' hq => h.silent (silent_of_quiet hq))
    (fun c' hq => (h.silent (silent_of_quiet hq)).silent (silent_enterClosed c')) ?_
  intro c' hq
  have hcancel : Silent c' (c'.onTcb tcpTimerSlowCancel) := silent_onTcb rfl rfl
  exact ((h.silent (silent_of_quiet hq)).silent hcancel).silent (silent_slowSet env.cfg _ _)

end Segments

section Data

/-- Where the segments of one call lie. -/
theorem segPkts_within
    {rcv : TcbRcv} {flags : TcpFlags} {seq : U32} {bytes : List UInt8} {ns : List Nat}
    {p : TxPkt}
    (hp : p ∈ segPkts rcv flags seq bytes ns) :
    ∃ o, p.seq = seq + BitVec.ofNat 32 o ∧ o + p.data.length ≤ ns.sum ∧ p.flags = flags := by
  induction ns generalizing seq bytes with
  | nil =>
      cases hp
  | cons n ns ih =>
      rw [segPkts] at hp
      rcases List.mem_cons.1 hp with rfl | hp
      · refine ⟨0, by simp, ?_, rfl⟩
        simp only [List.length_take, List.sum_cons]
        omega
      · obtain ⟨o, hseq, hle, hflags⟩ := ih hp
        refine ⟨n + o, ?_, ?_, hflags⟩
        · rw [hseq, BitVec.ofNat_add, BitVec.add_assoc]
        · rw [List.sum_cons]
          omega

/--
`SND.NXT` follows segments that are cut from an offset at or below it, when none of them
begins below it and ends above it.
-/
theorem followNxt_segSizes
    {mtu f : Nat} {sendOk : Nat → Bool}
    (una : U32) (fuel i o len : Nat)
    (ho : o ≤ f)
    (hsmall : f < 2 ^ 31 ∧ o + len < 2 ^ 31)
    (hno :
      ∀ k < fuel, (∀ j ≤ k, sendOk (i + j) = true) →
        ¬ (o + k * mtu < f ∧ f < o + min ((k + 1) * mtu) len)) :
    followNxt (una + BitVec.ofNat 32 f) (una + BitVec.ofNat 32 o)
        (segSizes mtu sendOk fuel i len) =
      una + BitVec.ofNat 32 (max f (o + (segSizes mtu sendOk fuel i len).sum)) := by
  induction fuel generalizing i o len with
  | zero =>
      rw [segSizes, List.sum_nil, Nat.add_zero, Nat.max_eq_left ho]
      rfl
  | succ fuel ih =>
      rw [segSizes]
      split
      · rw [List.sum_nil, Nat.add_zero, Nat.max_eq_left ho]
        rfl
      · split
        · rename_i hlen hok
          have hfirst := hno 0 (Nat.succ_pos fuel) fun j hj => by
            obtain rfl : j = 0 := by omega
            exact hok
          rw [Nat.zero_mul, Nat.zero_add, Nat.one_mul, Nat.add_zero, Nat.min_comm] at hfirst
          have hmove : una + BitVec.ofNat 32 o + BitVec.ofNat 32 (min len mtu) =
              una + BitVec.ofNat 32 (o + min len mtu) := by
            rw [BitVec.ofNat_add, BitVec.add_assoc]
          rw [followNxt, hmove, List.sum_cons]
          by_cases heq : o = f
          · -- aligned from here on
            subst heq
            rw [if_pos rfl, hmove, followNxt_aligned, Nat.max_eq_right (Nat.le_add_right _ _),
              BitVec.add_assoc, ← BitVec.ofNat_add, Nat.add_assoc]
          · have hne : una + BitVec.ofNat 32 o ≠ una + BitVec.ofNat 32 f := by
              intro h
              exact heq ((SequenceComparison.segEQ_seqAt una (by omega) (by omega)).1 h)
            rw [if_neg hne, ih (i + 1) (o + min len mtu) (len - min len mtu) (by omega)
              (by omega), Nat.add_assoc]
            intro k hk hall
            have hnext := hno (k + 1) (by omega) fun j hj => by
              cases j with
              | zero =>
                  exact hok
              | succ j =>
                  have := hall j (by omega)
                  rwa [Nat.add_assoc, Nat.add_comm 1 j] at this
            rintro ⟨hlow, hhigh⟩
            rcases Nat.le_total len mtu with hle | hle
            · rw [Nat.min_eq_left hle] at hhigh hlow
              simp only [Nat.sub_self, Nat.min_zero] at hhigh
              omega
            · rw [Nat.min_eq_right hle] at hlow hhigh
              refine hnext ⟨?_, ?_⟩
              · rw [Nat.succ_mul]
                omega
              · rw [Nat.succ_mul (k + 1)]
                omega
        · rw [List.sum_nil, Nat.add_zero, Nat.max_eq_left ho]
          rfl

/-- Data segments that end at or below the new `SND.NXT`. -/
theorem Extends.sentSegs
    {u : U32} {low high : Nat} {c : Tsm} {flags : TcpFlags} {o : Nat} {ns : List Nat}
    (sseq : U32) (bytes : List UInt8)
    (h : Extends u low high c)
    (huna : c.tcb.snd.una = u)
    (hfin : flags.fin = false)
    (hsseq : sseq = u + BitVec.ofNat 32 o)
    (hnxt : followNxt c.tcb.snd.nxt sseq ns =
      u + BitVec.ofNat 32 (max (flight c.tcb) (o + ns.sum)))
    (hhigh : o + ns.sum ≤ high)
    (hsmall : high < 2 ^ 31) :
    Extends u low high (sentSegs c flags sseq bytes ns) := by
  have hbound := h.bounded
  have hgrown := h.grown
  have horder := h.order
  rw [huna, sub_self] at horder
  have hzero : (0 : U32).toNat = 0 := rfl
  have hnew : ((RetransmissionQueue.sentSegs c flags sseq bytes ns).tcb.snd.nxt - u).toNat =
      max (flight c.tcb) (o + ns.sum) := by
    change (followNxt c.tcb.snd.nxt sseq ns - u).toNat = _
    rw [hnxt, add_sub_cancel_left, BitVec.toNat_ofNat, Nat.mod_eq_of_lt (by omega)]
  refine ⟨?_, by rw [hnew]; omega, by rw [hnew]; omega, ?_⟩
  · change (c.tcb.snd.una - u).toNat +
      ((RetransmissionQueue.sentSegs c flags sseq bytes ns).tcb.snd.nxt - c.tcb.snd.una).toNat = _
    rw [huna, sub_self, hzero, Nat.zero_add]
  · rw [hnew]
    intro p hp hpos
    rw [RetransmissionQueue.sentSegs, packets_append, packets_map_pkt] at hp
    rcases List.mem_append.1 hp with hp | hp
    · obtain ⟨hlow, hle⟩ := h.below p hp hpos
      exact ⟨hlow, by omega⟩
    · obtain ⟨o', hseq, hle, hflags⟩ := segPkts_within hp
      have hdist : p.seq - u = BitVec.ofNat 32 (o + o') := by
        rw [hseq, hsseq, BitVec.add_assoc, ← BitVec.ofNat_add, add_sub_cancel_left]
      have hnat : (p.seq - u).toNat = o + o' := by
        rw [hdist, BitVec.toNat_ofNat, Nat.mod_eq_of_lt (by omega)]
      rw [toInt_sub_of_small (by omega), hnat, pktNumbers, hflags, hfin]
      simp only [Bool.false_eq_true, if_false]
      omega

/-- New data is sent from `SND.NXT` on. -/
theorem Extends.tcpDataSend
    {env : TsmEnv} {tcb : Tcb} {data : TsmDataArg} {k : Nat}
    (h : QueueFlight env.cfg k tcb)
    (hcfg : ConfigOk env.cfg)
    (hk : k < 2 ^ 16)
    (hdata : SendChainOk tcb data.tdaMbuf) :
    Extends tcb.snd.una (flight tcb) (2 ^ 20) (tcpDataSend env (Tsm.start tcb) data) := by
  have hlt := h.flight_lt hcfg
  have hw := hcfg.winSize
  have hstart : ∀ tcb' : Tcb, tcb'.snd = tcb.snd →
      Extends tcb.snd.una (flight tcb) (2 ^ 20) { Tsm.start tcb with tcb := tcb' } := by
    intro tcb' hsnd
    have hs : Extends tcb.snd.una (flight tcb) (2 ^ 20) (Tsm.start tcb) :=
      extends_start (by omega)
    exact hs.silent ⟨by rw [hsnd]; rfl, by rw [hsnd]; rfl, [], by simp, by simp⟩
  rcases tcpDataSend_spec (c := Tsm.start tcb) hcfg.mtu h.queue hdata with
    heq | ⟨tcb', ns, hsent⟩
  · rw [heq]
    exact (hstart tcb rfl).silent ⟨rfl, rfl, [], by simp [Tsm.start], by simp⟩
  · have hsnd : tcb'.snd = tcb.snd := by
      rw [hsent.stored.others]
      rfl
    have hfl : flight tcb' = flight tcb := by
      rw [flight, flight, hsnd]
    have hb : (queued tcb').length ≤ env.cfg.sockopt.tcpoWinSize.toNat :=
      hsent.stored.queue.bounded
    have hsum : flight tcb + ns.sum ≤ 2 ^ 20 := by
      cases ns with
      | nil =>
          simp only [List.sum_nil]
          omega
      | cons n ns =>
          have hwithin := hsent.within (by simp)
          omega
    have hnxt : tcb.snd.nxt = tcb.snd.una + BitVec.ofNat 32 (flight tcb) := by
      rw [flight, BitVec.ofNat_toNat, BitVec.setWidth_eq]
      abel
    have hsegs := @Extends.sentSegs _ _ _ _ (sendFlags data) (flight tcb) ns
      tcb'.snd.nxt ((queued tcb').drop (flight tcb')) (hstart tcb' hsnd)
      (by rw [hsnd]) rfl (by rw [hsnd]; exact hnxt)
      (by
        rw [followNxt_aligned, hsnd, hfl, Nat.max_eq_right (Nat.le_add_right _ _),
          BitVec.ofNat_add, ← BitVec.add_assoc, ← hnxt])
      hsum (by decide)
    rw [hsent.result]
    exact hsegs.silent ⟨rfl, rfl, [], by simp, by simp⟩

/-- The segments of a retransmission begin or end at `SND.NXT`, or lie on one side of it. -/
def KeepsBoundaries (cfg : TcpConfig) (tcb : Tcb) (i : ConnInput) : Prop :=
  i.event = .rtoTimer → tcb.state = .established →
    tcb.retransCnt + 1 ≠ cfg.sockopt.tcpoDataRetryCnt →
      ∀ k ≤ tcbSegsPerSend, (∀ j ≤ k, i.sendOk j = true) →
        ¬ (k * cfg.mtu < flight tcb ∧
          flight tcb < min ((k + 1) * cfg.mtu) (retransSize tcb).toNat)

/-- A retransmission that keeps the boundaries is covered. -/
theorem Extends.tcpDataRetrans
    {env : TsmEnv} {c : Tsm} {low high k : Nat}
    (h : Extends c.tcb.snd.una low high c)
    (hbound : QueueFlight env.cfg k c.tcb)
    (hcfg : ConfigOk env.cfg)
    (hqueued : (queued c.tcb).length ≤ high)
    (hsmall : high < 2 ^ 30)
    (hno :
      ∀ k ≤ tcbSegsPerSend, (∀ j ≤ k, env.sendOk j = true) →
        ¬ (k * env.cfg.mtu < flight c.tcb ∧
          flight c.tcb < min ((k + 1) * env.cfg.mtu) (retransSize c.tcb).toNat)) :
    Extends c.tcb.snd.una low high (tcpDataRetrans env c) := by
  have hw := hcfg.winSize
  obtain ⟨heq, hsum⟩ := tcpDataRetrans_spec env hcfg.mtu hbound.queue (by omega)
  have horder := h.order
  have hle := h.bounded
  have hzero : (0 : U32).toNat = 0 := rfl
  rw [sub_self, hzero] at horder
  have hsize : (retransSize c.tcb).toNat ≤ (queued c.tcb).length := by
    have htotal := hbound.queue.total_toNat env.cfg.sockopt.tcpoWinSize.isLt
    rw [retransSize, queued]
    split
    · omega
    · rename_i hlt
      rw [BitVec.lt_def] at hlt
      omega
  have hnxt : c.tcb.snd.nxt = c.tcb.snd.una + BitVec.ofNat 32 (flight c.tcb) := by
    rw [flight, BitVec.ofNat_toNat, BitVec.setWidth_eq]
    abel
  have hfollow := @followNxt_segSizes env.cfg.mtu (flight c.tcb) env.sendOk
    c.tcb.snd.una (tcbSegsPerSend + 1) 0 0 (retransSize c.tcb).toNat
    (Nat.zero_le _) (by omega) fun k hk hall => by
      simp only [Nat.zero_add] at hall ⊢
      exact hno k (Nat.le_of_lt_succ hk) hall
  rw [heq]
  refine h.sentSegs (o := 0) _ _ rfl rfl (by simp) ?_ (by omega) (by omega)
  rw [← hnxt, BitVec.add_zero] at hfollow
  exact hfollow

end Data

section Steps

variable {cfg : TcpConfig}

/-- Resending the FIN sends a number that is already covered. -/
theorem extends_resendFin
    {u : U32} {low high : Nat} {c : Tsm}
    (h : Extends u low high c)
    (hhigh : high < 2 ^ 31) :
    Extends u low high (resendFin c) := by
  have hle := h.bounded
  refine ⟨h.order, h.grown, h.bounded, ?_⟩
  intro p hp hpos
  have hmem : p ∈ packets c.out ∨
      p = { seq := c.tcb.snd.nxt - 1, ack := c.tcb.rcv.nxt,
            flags := { fin := true, ack := true },
            wnd := c.tcb.rcv.wnd.truncate 16, data := [] } := by
    simpa [resendFin, Tsm.tcpSendCtrlPktWithSseq, packets] using hp
  rcases hmem with hmem | rfl
  · exact h.below p hmem hpos
  · simp only [pktNumbers, List.length_nil, if_true]
    change -1 ≤ (c.tcb.snd.nxt - 1 - u).toInt ∧
      (c.tcb.snd.nxt - 1 - u).toInt + ((0 + 1 : Nat) : Int) ≤ ((c.tcb.snd.nxt - u).toNat : Int)
    have hsub : c.tcb.snd.nxt - 1 - u = c.tcb.snd.nxt - u - 1 := by
      abel
    rw [hsub]
    generalize c.tcb.snd.nxt - u = d at hle
    rcases Nat.eq_zero_or_pos d.toNat with hzero | hpos'
    · obtain rfl : d = 0 := BitVec.eq_of_toNat_eq hzero
      decide
    · have hdec : (d - 1).toNat = d.toNat - 1 := by
        bv_omega
      rw [BitVec.toInt_eq_toNat_of_lt (by omega), hdec]
      omega

/-- A retransmission timeout closes, or resends. -/
theorem extends_retransOrClose
    {u : U32} {low high : Nat} {env : TsmEnv} {c : Tsm} {limit : BitVec 8}
    {giveUp resend : Tsm → Tsm}
    (hgive : Extends u low high (giveUp c))
    (hresend : c.tcb.retransCnt ≠ limit → Extends u low high (resend c)) :
    Extends u low high (retransOrClose env limit giveUp resend c) := by
  unfold retransOrClose
  split
  · exact hgive
  · rename_i hnot
    refine (hresend ?_).silent (silent_schedule env.cfg _)
    simpa [tcpTooManyRetries] using hnot

theorem extends_retransTimeout
    {tcb : Tcb} {i : ConnInput}
    (hcfg : ConfigOk cfg)
    (hinv : SendInv cfg anySlack tcb)
    (hlive : tcb.inHtable = true)
    (hevent : i.event = .rtoTimer)
    (hkeeps : KeepsBoundaries cfg tcb i) :
    Extends tcb.snd.una (flight tcb) (2 ^ 20)
      (tcpHandleRetransTo (i.env cfg) (Tsm.start tcb)) := by
  have hsmall := flight_small hcfg hinv hlive
  have hw := hcfg.winSize
  have hfired : Extends tcb.snd.una (flight tcb) (2 ^ 20)
      ((Tsm.start tcb).onTcb fun tcb =>
        { tcb with onRtoList := false, retransCnt := tcb.retransCnt + 1 }) :=
    (extends_start (by omega)).silent (silent_onTcb rfl rfl)
  have hsyn : ∀ flags : TcpFlags, flags.fin = false → Extends tcb.snd.una (flight tcb) (2 ^ 20)
      (((Tsm.start tcb).onTcb fun tcb =>
        { tcb with onRtoList := false,
                   retransCnt := tcb.retransCnt + 1 }).tcpSendCtrlPktUseIss flags) :=
    fun flags hfin => hfired.silent (silent_of_quiet (quiet_ctrl _ _ hfin))
  have hslow : ∀ c' : Tsm, Silent c' (c'.onTcb tcpTimerSlowCancel) :=
    fun c' => silent_onTcb rfl rfl
  unfold tcpHandleRetransTo tsmRetransmissionTimeout
  cases hstate : tcb.state with
  | synSent | synRecv =>
      simp only [Tsm.start, onTcb_tcb, hstate]
      exact extends_retransOrClose (hfired.silent (silent_notifyAndClose _))
        fun _ => hsyn _ rfl
  | finWaitI =>
      simp only [Tsm.start, onTcb_tcb, hstate]
      exact extends_retransOrClose
        ((hfired.silent (hslow _)).silent (silent_enterClosed _))
        fun _ => extends_resendFin hfired (by decide)
  | lastAck | closing =>
      simp only [Tsm.start, onTcb_tcb, hstate]
      exact extends_retransOrClose (hfired.silent (silent_enterClosed _))
        fun _ => extends_resendFin hfired (by decide)
  | established =>
      simp only [Tsm.start, onTcb_tcb, hstate]
      refine extends_retransOrClose (hfired.silent (silent_notifyAndClose _)) fun hlimit => ?_
      have hbound := hinv.bound hlive
      have hb : (queued tcb).length ≤ cfg.sockopt.tcpoWinSize.toNat := hbound.queue.bounded
      have hbound' : QueueFlight cfg (anySlack.of tcb.state)
          ((Tsm.start tcb).onTcb fun tcb =>
            { tcb with onRtoList := false, retransCnt := tcb.retransCnt + 1 }).tcb :=
        hbound.of_eq rfl rfl rfl
      have hdata := @Extends.tcpDataRetrans (i.env cfg)
        ((Tsm.start tcb).onTcb fun tcb =>
          { tcb with onRtoList := false, retransCnt := tcb.retransCnt + 1 })
        _ _ (anySlack.of tcb.state)
        hfired hbound' hcfg (show (queued tcb).length ≤ 2 ^ 20 by omega) (by decide)
        (hkeeps hevent hstate hlimit)
      exact hdata.silent (silent_notifyWinUnavail _ _)
  | closeWait =>
      exact absurd hstate (hinv.resting hlive).2.1
  | init | listen | finWaitII | timeWait | closed =>
      simpa only [Tsm.start, onTcb_tcb, hstate] using hfired

theorem extends_slowTimeout
    {tcb : Tcb}
    (env : TsmEnv)
    (hsmall : flight tcb ≤ 2 ^ 20) :
    Extends tcb.snd.una (flight tcb) (2 ^ 20) (tcpHandleSlowTo env (Tsm.start tcb)) := by
  have hfired : Extends tcb.snd.una (flight tcb) (2 ^ 20)
      ((Tsm.start tcb).onTcb fun tcb => { tcb with onSlowList := false }) :=
    (extends_start hsmall).silent (silent_onTcb rfl rfl)
  have hclose : ∀ s, Extends tcb.snd.una (flight tcb) (2 ^ 20)
      (closeIn s ((Tsm.start tcb).onTcb fun tcb => { tcb with onSlowList := false })) := by
    intro s
    unfold closeIn
    split
    · exact hfired.silent (silent_enterClosed _)
    · exact hfired
  unfold tcpHandleSlowTo
  simp only
  split
  · exact hclose _
  · exact hclose _
  · exact hclose _
  all_goals exact hfired

theorem extends_segment
    {tcb : Tcb}
    (env : TsmEnv) (pcb : Pcb)
    (hcfg : ConfigOk env.cfg)
    (hinv : SendInv env.cfg anySlack tcb)
    (hlive : tcb.inHtable = true) :
    Extends tcb.snd.una (flight tcb) (2 ^ 20) (tsmSegmentArrives env pcb (Tsm.start tcb)) := by
  have hsmall := flight_small hcfg hinv hlive
  have hstart : Extends tcb.snd.una (flight tcb) (2 ^ 19) (Tsm.start tcb) :=
    extends_start (by omega)
  have hqueue := (hinv.bound hlive).queue
  have hat : At env.cfg tcb.state (anySlack.of tcb.state) (Tsm.start tcb).tcb := hinv.at hlive
  unfold tsmSegmentArrives
  cases hstate : tcb.state with
  | init =>
      exact absurd hstate (hinv.resting hlive).1
  | closeWait =>
      exact absurd hstate (hinv.resting hlive).2.1
  | closed =>
      exact absurd hstate (hinv.resting hlive).2.2
  | listen =>
      simp only [Tsm.start, hstate]
      exact (listenSegment_elim (P := fun c' => Extends _ _ _ c')
        fun c' hq => hstart.silent (silent_of_quiet hq)).mono (by decide)
  | synSent =>
      obtain ⟨huna, hnxt, -⟩ := hinv.handshake hlive (Or.inl hstate)
      simp only [Tsm.start, hstate]
      exact (synSent_extends huna hnxt hstart (by decide)).mono (by decide)
  | synRecv =>
      obtain ⟨huna, hnxt, -⟩ := hinv.handshake hlive (Or.inr hstate)
      simp only [Tsm.start, hstate]
      exact (synRecv_extends huna hnxt hstart (by decide)).mono (by decide)
  | established =>
      simp only [Tsm.start, hstate]
      exact (estab_extends hcfg hqueue hstart (by decide)).mono (by decide)
  | finWaitI =>
      simp only [Tsm.start, hstate]
      exact (finWaitI_extends hcfg hqueue ((hat.acked pcb true hcfg).state.trans hstate) hstart
        (by decide)).mono (by decide)
  | finWaitII =>
      simp only [Tsm.start, hstate]
      exact (finWaitII_extends hcfg hqueue ((hat.acked pcb false hcfg).state.trans hstate)
        hstart (by decide)).mono (by decide)
  | lastAck =>
      simp only [Tsm.start, hstate]
      exact (lastAckSegment_elim (P := fun c' => Extends _ _ _ c')
        (fun c' hq => hstart.silent (silent_of_quiet hq))
        fun c' hq => (hstart.silent (silent_of_quiet hq)).silent
          (silent_enterClosed c')).mono (by decide)
  | closing =>
      simp only [Tsm.start, hstate]
      exact (closing_extends hcfg hqueue hstart (by decide)).mono (by decide)
  | timeWait =>
      simp only [Tsm.start, hstate]
      exact (timeWait_extends hstart).mono (by decide)

/-- Every transition of an open control block covers what it sends. -/
theorem extends_step
    {tcb : Tcb} {i : ConnInput}
    (hcfg : ConfigOk cfg)
    (hinv : SendInv cfg anySlack tcb)
    (hlegal : ConnLegal tcb i)
    (hkeeps : KeepsBoundaries cfg tcb i)
    (hold : opens i.event = false) :
    Extends tcb.snd.una (flight tcb) (2 ^ 20) (connStep cfg tcb i) := by
  unfold connStep
  cases hevent : i.event with
  | «open» active | accept syn =>
      rw [hevent] at hold
      cases hold
  | send data =>
      simp only [ConnLegal, hevent] at hlegal
      have hsmall := flight_small hcfg hinv hlegal.1
      have hsent : Extends tcb.snd.una (flight tcb) (2 ^ 20)
          (tsmSendData (i.env cfg) (Tsm.start tcb) data) := by
        have hk : anySlack.of tcb.state < 2 ^ 16 := by
          cases tcb.state <;> decide
        have hdata := @Extends.tcpDataSend (i.env cfg) _ _ _ (hinv.bound hlegal.1) hcfg hk
          hlegal.2
        exact (hdata.silent (silent_schedule (i.env cfg).cfg _)).silent
          (silent_notifyWinUnavail _ _)
      have hrefused : Extends tcb.snd.una (flight tcb) (2 ^ 20)
          ((Tsm.start tcb).fail .enotconn) :=
        (extends_start (by omega)).silent (silent_of_quiet (quiet_fail _ _))
      simp only [tsmSend]
      split
      · exact hsent
      · exact hsent
      all_goals exact hrefused
  | close =>
      simp only [ConnLegal, hevent] at hlegal
      have hsmall := flight_small hcfg hinv hlegal
      have hstart : Extends tcb.snd.una (flight tcb) (2 ^ 19) (Tsm.start tcb) :=
        extends_start (by omega)
      exact (hstart.tsmClose (by decide)).mono (by decide)
  | segment pcb =>
      simp only [ConnLegal, hevent] at hlegal
      exact extends_segment (i.env cfg) pcb hcfg hinv hlegal
  | rtoTimer =>
      simp only [ConnLegal, hevent] at hlegal
      exact extends_retransTimeout hcfg hinv (hinv.live_of_timer (Or.inl hlegal)) hevent hkeeps
  | slowTimer =>
      simp only [ConnLegal, hevent] at hlegal
      have hsmall := flight_small hcfg hinv (hinv.live_of_timer (Or.inr hlegal))
      exact extends_slowTimeout (i.env cfg) (by omega)
  | purge =>
      simp only [ConnLegal, hevent] at hlegal
      have hsmall := flight_small hcfg hinv hlegal
      exact (extends_start (by omega)).silent (silent_close _)

end Steps

section Results

variable {cfg : TcpConfig}

/--
A control block with the position of `SND.UNA`, counted from our SYN, and the positions
behind the last number of everything that was sent, retransmissions included.
-/
structure Transcript where
  tcb : Tcb
  una : Int
  ends : List Int

/-- A control block that was never opened. -/
def Transcript.blank : Transcript :=
  { tcb := blankTcb, una := 0, ends := [] }

/-- The position behind a packet that is sent; numbers are unwrapped around `SND.UNA`. -/
def Transcript.endOf (t : Transcript) (p : TxPkt) : Int :=
  t.una + (p.seq - t.tcb.snd.una).toInt + pktNumbers p

/-- One input, with what it adds to the transcript; opening sends a SYN, or nothing. -/
def transcriptStep (cfg : TcpConfig) (t : Transcript) (i : ConnInput) : Transcript :=
  let c := connStep cfg t.tcb i
  if opens i.event then
    { tcb := c.tcb, una := 0, ends := [(flight c.tcb : Int)] }
  else
    { tcb := c.tcb
      una := t.una + (c.tcb.snd.una - t.tcb.snd.una).toInt
      ends :=
        t.ends ++ ((packets c.out).filter fun p => 0 < pktNumbers p).map t.endOf }

/-- The position of `SND.NXT`. -/
def Transcript.nxt (t : Transcript) : Int :=
  t.una + flight t.tcb

/-- A step that can happen, and that does not retransmit across `SND.NXT`. -/
def BoundariesOk (cfg : TcpConfig) (t : Transcript) (i : ConnInput) : Prop :=
  ConnLegal t.tcb i ∧ KeepsBoundaries cfg t.tcb i

/-- Everything that was sent ends at or below `SND.NXT`. -/
structure TranscriptInv (cfg : TcpConfig) (t : Transcript) : Prop where
  send : SendInv cfg anySlack t.tcb
  ends : ∀ e ∈ t.ends, e ≤ t.nxt

theorem transcriptStep_tcb
    (cfg : TcpConfig) (t : Transcript) (i : ConnInput) :
    (transcriptStep cfg t i).tcb = (connStep cfg t.tcb i).tcb := by
  simp only [transcriptStep]
  split <;> rfl

theorem transcriptInv_step
    {t : Transcript} {i : ConnInput}
    (hcfg : ConfigOk cfg)
    (hinv : TranscriptInv cfg t)
    (hok : BoundariesOk cfg t i) :
    TranscriptInv cfg (transcriptStep cfg t i) := by
  refine ⟨?_, ?_⟩
  · rw [transcriptStep_tcb]
    exact sendInv_step hcfg hinv.send hok.1 (anySlack_fits t.tcb i)
  · simp only [transcriptStep]
    split
    · simp [Transcript.nxt]
    · rename_i hold
      have hext := extends_step hcfg hinv.send hok.1 hok.2 (by simpa using hold)
      have horder := hext.order
      have hgrown := hext.grown
      have hbound := hext.bounded
      have hsmall : (2 : Nat) ^ 20 < 2 ^ 31 := by decide
      have huna : ((connStep cfg t.tcb i).tcb.snd.una - t.tcb.snd.una).toInt =
          ((connStep cfg t.tcb i).tcb.snd.una - t.tcb.snd.una).toNat :=
        toInt_sub_of_small (by omega)
      intro e he
      simp only [Transcript.nxt, huna]
      rcases List.mem_append.1 he with he | he
      · have hle := hinv.ends e he
        simp only [Transcript.nxt] at hle
        omega
      · obtain ⟨p, hp, rfl⟩ := List.mem_map.1 he
        obtain ⟨hp, hpos⟩ := List.mem_filter.1 hp
        obtain ⟨-, hle⟩ := hext.below p hp (by simpa using hpos)
        simp only [Transcript.endOf]
        omega

theorem transcriptInv_blank :
    TranscriptInv cfg .blank :=
  ⟨blankTcb_sendInv, by simp [Transcript.blank]⟩

/--
An ACK that a conforming peer may send: it acknowledges no more than was sent, and is not so
old that half of the numbers have been used since.
-/
def ConformingAck (t : Transcript) (ack : U32) : Prop :=
  ∃ a : Int, (∃ e ∈ t.ends, a ≤ e) ∧ t.nxt < a + 2 ^ 31 ∧
    ack = t.tcb.snd.una + BitVec.ofInt 32 (a - t.una)

/-- What a step sends is below `SND.NXT` after it, and so is what the peer acknowledges. -/
structure CoversSent (cfg : TcpConfig) (t : Transcript) (i : ConnInput) : Prop where
  below :
    ∀ p ∈ packets (connStep cfg t.tcb i).out, ∀ k < pktNumbers p,
      segLT (p.seq + BitVec.ofNat 32 k) (connStep cfg t.tcb i).tcb.snd.nxt = true
  acks :
    ∀ ack, ConformingAck (transcriptStep cfg t i) ack →
      segGT ack (transcriptStep cfg t i).tcb.snd.nxt = false

/-- Opening a control block sends neither data nor a FIN. -/
theorem opened_noNumbers
    {tcb : Tcb} {i : ConnInput} {p : TxPkt}
    (hopens : opens i.event = true)
    (hp : p ∈ packets (connStep cfg tcb i).out) :
    pktNumbers p = 0 := by
  have hquiet : ∀ flags : TcpFlags, flags.fin = false → ∀ (c : Tsm) (c' : Tsm),
      Silent (c.tcpSendCtrlPktUseIss flags) c' → (∀ q ∈ packets c.out, pktNumbers q = 0) →
        ∀ q ∈ packets c'.out, pktNumbers q = 0 := by
    intro flags hfin c c' hs hc q hq
    obtain ⟨ps, hps, hzero⟩ := ((silent_of_quiet (quiet_ctrl c c.tcb.snd.iss hfin)).trans hs).out
    rw [hps] at hq
    rcases List.mem_append.1 hq with hq | hq
    · exact hc q hq
    · exact hzero q hq
  unfold connStep at hp
  cases hevent : i.event with
  | «open» active =>
      rw [hevent] at hp
      cases active with
      | true =>
          refine hquiet { syn := true } rfl _ _ ((silent_setState .synSent _).trans
            ((silent_notif _ .sessConnecting).trans (silent_schedule cfg _))) ?_ p hp
          intro q hq
          cases hq
      | false =>
          cases hp
  | accept syn =>
      rw [hevent] at hp
      refine hquiet { syn := true, ack := true } rfl _ _ (silent_enterSynRecv cfg _) ?_ p hp
      intro q hq
      cases hq
  | send data | close | segment pcb | rtoTimer | slowTimer | purge =>
      rw [hevent] at hopens
      cases hopens

theorem sent_numbers_below
    {t : Transcript} {i : ConnInput}
    (hcfg : ConfigOk cfg)
    (hinv : TranscriptInv cfg t)
    (hok : BoundariesOk cfg t i)
    {p : TxPkt} {k : Nat}
    (hp : p ∈ packets (connStep cfg t.tcb i).out)
    (hk : k < pktNumbers p) :
    segLT (p.seq + BitVec.ofNat 32 k) (connStep cfg t.tcb i).tcb.snd.nxt = true := by
  cases hopens : opens i.event with
  | true =>
      rw [opened_noNumbers hopens hp] at hk
      cases hk
  | false =>
      have hext := extends_step hcfg hinv.send hok.1 hok.2 hopens
      obtain ⟨hlow, hle⟩ := hext.below p hp (by omega)
      have hbound := hext.bounded
      generalize (connStep cfg t.tcb i).tcb.snd.nxt = nxt at hle hbound ⊢
      -- the distance to `SND.NXT` is what is left of the segment, and more
      have hdist : nxt - (p.seq + BitVec.ofNat 32 k) =
          BitVec.ofInt 32 ((nxt - t.tcb.snd.una).toNat - (p.seq - t.tcb.snd.una).toInt - k) := by
        rw [ofInt_sub, ofInt_sub, BitVec.ofInt_toInt, BitVec.ofInt_natCast,
          BitVec.ofInt_natCast, BitVec.ofNat_toNat, BitVec.setWidth_eq]
        abel
      rw [segLT_iff, hdist, BitVec.toNat_ofInt]
      omega

theorem conformingAck_not_above
    {t : Transcript} {ack : U32}
    (hinv : TranscriptInv cfg t)
    (hack : ConformingAck t ack) :
    segGT ack t.tcb.snd.nxt = false := by
  obtain ⟨a, ⟨e, he, hae⟩, hnear, rfl⟩ := hack
  have hle := hinv.ends e he
  simp only [Transcript.nxt] at hle hnear
  have hflight : (flight t.tcb : Int) = (t.tcb.snd.nxt - t.tcb.snd.una).toNat := rfl
  have hdist : t.tcb.snd.nxt - (t.tcb.snd.una + BitVec.ofInt 32 (a - t.una)) =
      BitVec.ofInt 32 (t.una + flight t.tcb - a) := by
    have hint : t.una + flight t.tcb - a =
        ((t.tcb.snd.nxt - t.tcb.snd.una).toNat : Int) - (a - t.una) := by
      rw [hflight]
      ring
    rw [hint]
    generalize a - t.una = d
    rw [ofInt_sub, BitVec.ofInt_natCast, BitVec.ofNat_toNat, BitVec.setWidth_eq]
    abel
  rw [segGT, Bool.eq_false_iff, ne_eq, segLT_iff]
  have hnat : (t.tcb.snd.nxt - (t.tcb.snd.una + BitVec.ofInt 32 (a - t.una))).toNat <
      2 ^ 31 := by
    rw [hdist, BitVec.toNat_ofInt]
    omega
  generalize t.tcb.snd.una + BitVec.ofInt 32 (a - t.una) = ack at hnat ⊢
  bv_omega

/-- In a run that never retransmits across `SND.NXT` everything that is sent is below it. -/
theorem sent_below_nxt
    (cfg : TcpConfig)
    (hcfg : ConfigOk cfg)
    (is : List ConnInput) (i : ConnInput)
    (hrun : Guarded (transcriptStep cfg) (BoundariesOk cfg) .blank (is ++ [i])) :
    CoversSent cfg (run (transcriptStep cfg) .blank is) i := by
  obtain ⟨hbefore, hlast, -⟩ := (guarded_append _ _ _).1 hrun
  have hinv := run_invariant (TranscriptInv cfg)
    (fun _ _ hinv hok => transcriptInv_step hcfg hinv hok) transcriptInv_blank hbefore
  exact ⟨fun p hp k hk => sent_numbers_below hcfg hinv hlast hp hk,
    fun ack hack => conformingAck_not_above (transcriptInv_step hcfg hinv hlast) hack⟩

/-- Four bytes, lost and sent again, then a close and its FIN lost and sent again. -/
def resentInOrder : List ConnInput :=
  [.plain (.open true),
   .plain (.segment (plainPcb 100 1 { syn := true, ack := true } [])),
   .plain (plainSend 7 [1, 2, 3, 4]),
   .plain .rtoTimer,
   .plain .close]

theorem keepsBoundaries_of_ne
    {tcb : Tcb} {event : ConnEvent}
    (hne : event ≠ .rtoTimer ∨ tcb.state ≠ .established) :
    KeepsBoundaries cfg tcb (.plain event) := by
  intro hevent hstate
  rcases hne with hne | hne
  · exact absurd hevent hne
  · exact absurd hstate hne

theorem resentInOrder_ok :
    Guarded (transcriptStep defaultConfig) (BoundariesOk defaultConfig) .blank
      (resentInOrder ++ [.plain .rtoTimer]) := by
  refine ⟨⟨by decide, ?_⟩, ⟨by decide, ?_⟩, ⟨by decide, ?_⟩, ⟨by decide, ?_⟩,
    ⟨by decide, ?_⟩, ⟨by decide, ?_⟩, trivial⟩
  · exact keepsBoundaries_of_ne (Or.inl (by simp))
  · exact keepsBoundaries_of_ne (Or.inl (by simp))
  · exact keepsBoundaries_of_ne (Or.inl (by simp [plainSend]))
  · -- the whole queue fits in one segment, which ends at `SND.NXT`
    rintro - - - k - - ⟨-, hlt⟩
    exact absurd (hlt.trans_le (Nat.min_le_right _ _)) (by decide)
  · exact keepsBoundaries_of_ne (Or.inl (by simp))
  · exact keepsBoundaries_of_ne (Or.inr (by decide))

theorem sent_below_nxt_resentInOrder :
    CoversSent defaultConfig (run (transcriptStep defaultConfig) .blank resentInOrder)
      (.plain .rtoTimer) :=
  sent_below_nxt defaultConfig defaultConfig_ok resentInOrder (.plain .rtoTimer)
    resentInOrder_ok

/-- The peer's window has room for two of four bytes, and grows before they are sent again. -/
def grownWindow : List ConnInput :=
  [.plain (.open true),
   .plain (.segment { plainPcb 100 1 { syn := true, ack := true } [] with rxWin := 2 }),
   .plain (plainSend 7 [1, 2, 3, 4]),
   .plain (.segment (plainPcb 101 1 { ack := true } []))]

/-- The retransmission sends two new bytes, and the ACK of all four is above `SND.NXT`. -/
theorem grownWindow_uncovered :
    Guarded (transcriptStep defaultConfig) (fun t i => ConnLegal t.tcb i) .blank
      (grownWindow ++ [.plain .rtoTimer]) ∧
    ¬ CoversSent defaultConfig (run (transcriptStep defaultConfig) .blank grownWindow)
      (.plain .rtoTimer) := by
  refine ⟨by decide, fun h => ?_⟩
  have hsent : ∃ p ∈ packets (connStep defaultConfig
      (run (transcriptStep defaultConfig) .blank grownWindow).tcb (.plain .rtoTimer)).out,
      2 < pktNumbers p ∧ segLT (p.seq + BitVec.ofNat 32 2) (connStep defaultConfig
        (run (transcriptStep defaultConfig) .blank grownWindow).tcb
        (.plain .rtoTimer)).tcb.snd.nxt = false := by
    decide
  obtain ⟨p, hp, hlong, habove⟩ := hsent
  have hbelow := h.below p hp 2 hlong
  rw [habove] at hbelow
  cases hbelow

end Results

end TransmittedNumbers
end Warp17
