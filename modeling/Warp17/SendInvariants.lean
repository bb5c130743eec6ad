import Warp17.ConnectionRuns

/-!
# Sequence numbers in flight and bytes in the queue

`SND.NXT - SND.UNA` counts the sequence numbers that were used and not acknowledged.  Those
of data have their bytes in the retransmission queue; the SYN, and every FIN that was sent,
are in flight without a byte.  `SendInv` bounds the difference by an allowance for each
state, and is an invariant of all runs once the allowance is large enough for the steps that
they take.

**Results**
- `ackArrived_spec`: an acknowledgement that the machine accepts drops at most what is in
  flight.
- `sendInv_step`: the invariant is preserved by every step the allowance fits.
-/

namespace Warp17
namespace SendInvariants

open GuardedRuns SequenceComparison MbufChains ControlBlock SendQueue RetransmissionQueue
open TcpStateMachine TransitionPaths ConnectionRuns

/-- What the configuration checks guarantee, and a link that carries data. -/
structure ConfigOk (cfg : TcpConfig) : Prop where
  winSize : cfg.sockopt.tcpoWinSize.toNat < 2 ^ 16
  mtu : 0 < cfg.mtu

section Primitives

variable {cfg : TcpConfig} {k : Nat}

/-- A queue in order, with at most `k` more sequence numbers in flight than bytes in it. -/
structure QueueFlight (cfg : TcpConfig) (k : Nat) (tcb : Tcb) : Prop where
  queue : QueueOk cfg.sockopt.tcpoWinSize.toNat tcb.retrans
  flight : flight tcb ≤ (queued tcb).length + k

theorem QueueFlight.mono
    {k' : Nat} {tcb : Tcb}
    (h : QueueFlight cfg k tcb)
    (hk : k ≤ k') :
    QueueFlight cfg k' tcb :=
  ⟨h.queue, h.flight.trans (by omega)⟩

theorem QueueFlight.of_eq
    {tcb tcb' : Tcb}
    (h : QueueFlight cfg k tcb)
    (huna : tcb'.snd.una = tcb.snd.una)
    (hnxt : tcb'.snd.nxt = tcb.snd.nxt)
    (hretrans : tcb'.retrans = tcb.retrans) :
    QueueFlight cfg k tcb' := by
  refine ⟨hretrans ▸ h.queue, ?_⟩
  rw [RetransmissionQueue.flight, huna, hnxt, queued, hretrans]
  exact h.flight

theorem QueueFlight.same
    {tcb tcb' : Tcb}
    (h : QueueFlight cfg k tcb)
    (hsame : SameSend tcb tcb') :
    QueueFlight cfg k tcb' :=
  h.of_eq (by rw [hsame.snd]) (by rw [hsame.snd]) hsame.retrans

theorem QueueFlight.flight_lt
    {tcb : Tcb}
    (h : QueueFlight cfg k tcb)
    (hcfg : ConfigOk cfg) :
    RetransmissionQueue.flight tcb < 2 ^ 16 + k := by
  have hf := h.flight
  have hb : (queued tcb).length ≤ cfg.sockopt.tcpoWinSize.toNat := h.queue.bounded
  have hw := hcfg.winSize
  omega

/-- Using one more sequence number. -/
theorem flight_succ
    {tcb tcb' : Tcb}
    (huna : tcb'.snd.una = tcb.snd.una)
    (hnxt : tcb'.snd.nxt = tcb.snd.nxt + 1)
    (hlt : flight tcb + 1 < 2 ^ 32) :
    flight tcb' = flight tcb + 1 := by
  have hsub : tcb.snd.nxt + 1 - tcb.snd.una = tcb.snd.nxt - tcb.snd.una + 1 := by
    abel
  rw [flight, huna, hnxt, hsub, BitVec.toNat_add]
  exact Nat.mod_eq_of_lt hlt

/-- A FIN is one more sequence number in flight. -/
theorem QueueFlight.sendFin
    {c : Tsm}
    (h : QueueFlight cfg k c.tcb)
    (hcfg : ConfigOk cfg)
    (hk : k < 2 ^ 16) :
    QueueFlight cfg (k + 1) (sendFin c).tcb := by
  have hlt := h.flight_lt hcfg
  have hsucc : RetransmissionQueue.flight (TcpStateMachine.sendFin c).tcb =
      RetransmissionQueue.flight c.tcb + 1 :=
    flight_succ rfl rfl (by omega)
  refine ⟨h.queue, ?_⟩
  rw [hsucc]
  exact Nat.succ_le_succ h.flight

/-- Counting one sequence number as acknowledged. -/
theorem flight_incUna
    {c : Tsm}
    (hpos : c.tcb.snd.una ≠ c.tcb.snd.nxt) :
    flight (incUna c).tcb + 1 = flight c.tcb := by
  have hsub : c.tcb.snd.nxt - (c.tcb.snd.una + 1) = c.tcb.snd.nxt - c.tcb.snd.una - 1 := by
    abel
  have hne : (c.tcb.snd.nxt - c.tcb.snd.una).toNat ≠ 0 := by
    intro h0
    have hz : c.tcb.snd.nxt - c.tcb.snd.una = 0 := BitVec.eq_of_toNat_eq (by simpa using h0)
    exact hpos (sub_eq_zero.1 hz).symm
  have hdec : (c.tcb.snd.nxt - c.tcb.snd.una - 1).toNat =
      (c.tcb.snd.nxt - c.tcb.snd.una).toNat - 1 := by
    rw [BitVec.toNat_sub_of_le]
    · rfl
    · rw [BitVec.le_def]
      exact Nat.one_le_iff_ne_zero.2 hne
  change (c.tcb.snd.nxt - (c.tcb.snd.una + 1)).toNat + 1 =
    (c.tcb.snd.nxt - c.tcb.snd.una).toNat
  rw [hsub, hdec]
  omega

/-- Sending from `SND.NXT`, or from `SND.UNA`, leaves no more in flight than is queued. -/
theorem QueueFlight.sentSegs
    {c : Tsm} {sseq : U32} {ns : List Nat} {o : Nat}
    (flags : TcpFlags) (bytes : List UInt8)
    (h : QueueFlight cfg k c.tcb)
    (hcfg : ConfigOk cfg)
    (hsseq : sseq = c.tcb.snd.una + BitVec.ofNat 32 o)
    (hsum : ns ≠ [] → o + ns.sum ≤ (queued c.tcb).length) :
    QueueFlight cfg k (sentSegs c flags sseq bytes ns).tcb := by
  refine ⟨h.queue, ?_⟩
  cases ns with
  | nil =>
      rw [sentSegs_nil]
      exact h.flight
  | cons n ns =>
      have hsum' := hsum (by simp)
      have hb : (queued c.tcb).length ≤ cfg.sockopt.tcpoWinSize.toNat := h.queue.bounded
      have hw := hcfg.winSize
      have hq : queued (RetransmissionQueue.sentSegs c flags sseq bytes (n :: ns)).tcb =
          queued c.tcb := rfl
      rw [hq]
      rcases followNxt_cases c.tcb.snd.nxt sseq (n :: ns) with hnxt | hnxt
      · have hf := h.flight
        simp only [RetransmissionQueue.flight, RetransmissionQueue.sentSegs, hnxt] at hf ⊢
        exact hf
      · have hfl : RetransmissionQueue.flight
            (RetransmissionQueue.sentSegs c flags sseq bytes (n :: ns)).tcb =
              o + (n :: ns).sum := by
          simp only [RetransmissionQueue.flight, RetransmissionQueue.sentSegs, hnxt]
          rw [hsseq, BitVec.add_assoc, ← BitVec.ofNat_add, add_sub_cancel_left, BitVec.toNat_ofNat,
            Nat.mod_eq_of_lt (by omega)]
        omega

/-- The acknowledgement that was accepted, and what it drops. -/
structure Accepted (cfg : TcpConfig) (pcb : Pcb) (finSent : Bool) (c : Tsm) (segAck : U32)
    (c' : Tsm) : Prop where
  clean : CleanUp cfg.sockopt.tcpoWinSize.toNat c segAck c'
  inFlight : (segAck - c.tcb.snd.una).toNat ≤ flight c.tcb
  ack :
    (segAck = pcb.recvAck ∧ ¬ (finSent = true ∧ pcb.recvAck = c.tcb.snd.nxt)) ∨
      (segAck = pcb.recvAck - 1 ∧ finSent = true ∧ pcb.recvAck = c.tcb.snd.nxt)

/-- The clean-up does nothing, or drops bytes that are queued and in flight. -/
theorem ackArrived_spec
    {c : Tsm}
    (pcb : Pcb) (finSent : Bool)
    (hcfg : ConfigOk cfg)
    (h : QueueOk cfg.sockopt.tcpoWinSize.toNat c.tcb.retrans) :
    ackArrived pcb finSent c = c ∨
      ∃ segAck, Accepted cfg pcb finSent c segAck (ackArrived pcb finSent c) := by
  have hw := hcfg.winSize
  have hb : (queued c.tcb).length ≤ cfg.sockopt.tcpoWinSize.toNat := h.bounded
  refine ackArrived_elim (P := fun c' => c' = c ∨ ∃ segAck, Accepted cfg pcb finSent c segAck c')
    (Or.inl rfl) ?_ ?_
  · intro hfin hnxt hgt
    rcases tsmCleanupRetransQueu_spec (pcb.recvAck - 1) h (by omega) with ⟨heq, -⟩ | hclean
    · exact Or.inl heq
    · refine Or.inr ⟨_, hclean, ?_, Or.inr ⟨rfl, hfin, hnxt⟩⟩
      have hwithin := hclean.within
      have hpos := hclean.pos
      rw [hnxt] at hwithin hpos ⊢
      rw [flight]
      bv_omega
  · intro hnot hgt hle
    rcases tsmCleanupRetransQueu_spec pcb.recvAck h (by omega) with ⟨heq, -⟩ | hclean
    · exact Or.inl heq
    · refine Or.inr ⟨_, hclean, ?_, Or.inl ⟨rfl, hnot⟩⟩
      have hwithin := hclean.within
      rw [segLE_iff] at hle
      rw [flight]
      bv_omega

theorem flight_eq_zero
    {tcb : Tcb} :
    flight tcb = 0 ↔ tcb.snd.una = tcb.snd.nxt := by
  constructor
  · intro hzero
    have hsub : tcb.snd.nxt - tcb.snd.una = 0 := BitVec.eq_of_toNat_eq hzero
    exact (sub_eq_zero.1 hsub).symm
  · intro heq
    rw [flight, heq, sub_self]
    rfl

theorem Accepted.flight_eq
    {pcb : Pcb} {finSent : Bool} {c c' : Tsm} {segAck : U32}
    (h : Accepted cfg pcb finSent c segAck c') :
    flight c'.tcb + (segAck - c.tcb.snd.una).toNat = flight c.tcb := by
  have hin := h.inFlight
  rw [flight, flight, h.clean.cleaned.snd]
  rw [flight] at hin
  simp only
  bv_omega

/-- With a FIN in flight the clean-up never takes its number. -/
theorem Accepted.fin_left
    {pcb : Pcb} {c c' : Tsm} {segAck : U32}
    (h : Accepted cfg pcb true c segAck c') :
    c'.tcb.snd.una ≠ c'.tcb.snd.nxt := by
  have heq := h.flight_eq
  have hin := h.inFlight
  have hlt : (segAck - c.tcb.snd.una).toNat ≠ flight c.tcb := by
    rw [flight]
    have hpos := h.clean.pos
    rcases h.ack with ⟨rfl, hnot⟩ | ⟨rfl, -, hnxt⟩
    · have hne : pcb.recvAck ≠ c.tcb.snd.nxt := fun heq => hnot ⟨rfl, heq⟩
      bv_omega
    · bv_omega
  intro hzero
  have hflight := flight_eq_zero.2 hzero
  omega

/-- An acknowledgement that was accepted is one that the text is processed with. -/
theorem ackArrived_of_unusable
    {pcb : Pcb} {finSent : Bool} {c : Tsm}
    (hcfg : ConfigOk cfg)
    (h : QueueFlight cfg k c.tcb)
    (hk : k < 2 ^ 16)
    (hunusable : ackUsable pcb (ackArrived pcb finSent c).tcb = false) :
    ackArrived pcb finSent c = c := by
  have hlt := h.flight_lt hcfg
  rcases ackArrived_spec pcb finSent hcfg h.queue with heq | ⟨segAck, hacc⟩
  · exact heq
  · have hin := hacc.inFlight
    have hpos := hacc.clean.pos
    have hack := hacc.ack
    have husable : ackUsable pcb (ackArrived pcb finSent c).tcb = true := by
      rw [ackUsable, hacc.clean.cleaned.snd, Bool.and_eq_true, Bool.not_eq_true',
        Bool.not_eq_true', ← Bool.not_eq_true, ← Bool.not_eq_true, segGT, segLT_iff, segLT_iff]
      rw [flight] at hin hlt
      rcases hack with ⟨rfl, -⟩ | ⟨rfl, -, hnxt⟩
      · constructor <;> simp only <;> bv_omega
      · constructor <;> simp only <;> bv_omega
    rw [husable] at hunusable
    cases hunusable

/-- Accepting an acknowledgement keeps the bound. -/
theorem QueueFlight.ackArrived
    {c : Tsm}
    (pcb : Pcb) (finSent : Bool)
    (h : QueueFlight cfg k c.tcb)
    (hcfg : ConfigOk cfg) :
    QueueFlight cfg k (ackArrived pcb finSent c).tcb := by
  rcases ackArrived_spec pcb finSent hcfg h.queue with heq | ⟨segAck, hacc⟩
  · rw [heq]
    exact h
  · have hf := h.flight
    have heq := hacc.flight_eq
    refine ⟨hacc.clean.cleaned.queue, ?_⟩
    rw [hacc.clean.cleaned.bytes, List.length_drop]
    omega

/-- `tcp_data_send()` keeps the bound. -/
theorem QueueFlight.tcpDataSend
    {env : TsmEnv} {c : Tsm} {data : TsmDataArg}
    (h : QueueFlight env.cfg k c.tcb)
    (hcfg : ConfigOk env.cfg)
    (hdata : SendChainOk c.tcb data.tdaMbuf) :
    QueueFlight env.cfg k (tcpDataSend env c data).tcb := by
  rcases tcpDataSend_spec hcfg.mtu h.queue hdata with heq | ⟨tcb', ns, hsent⟩
  · rw [heq]
    exact h
  · have hstored : QueueFlight env.cfg k tcb' := by
      have hf := h.flight
      refine ⟨hsent.stored.queue, ?_⟩
      rw [hsent.stored.bytes, List.length_append, RetransmissionQueue.flight,
        hsent.stored.others]
      rw [RetransmissionQueue.flight] at hf
      simp only
      omega
    have hseq : tcb'.snd.nxt =
        tcb'.snd.una + BitVec.ofNat 32 (RetransmissionQueue.flight tcb') := by
      rw [RetransmissionQueue.flight, BitVec.ofNat_toNat, BitVec.setWidth_eq]
      abel
    rw [hsent.result]
    exact QueueFlight.sentSegs (c := { c with tcb := tcb' }) (sendFlags data)
      ((queued tcb').drop (RetransmissionQueue.flight tcb')) hstored hcfg hseq hsent.within

/-- `tcp_data_retrans()` keeps the bound. -/
theorem QueueFlight.tcpDataRetrans
    {env : TsmEnv} {c : Tsm}
    (h : QueueFlight env.cfg k c.tcb)
    (hcfg : ConfigOk env.cfg) :
    QueueFlight env.cfg k (tcpDataRetrans env c).tcb := by
  have hw := hcfg.winSize
  obtain ⟨heq, hsum⟩ := tcpDataRetrans_spec env hcfg.mtu h.queue (by omega)
  rw [heq]
  exact h.sentSegs { ack := true } (queued c.tcb) hcfg (o := 0) (by simp) fun _ => by omega

end Primitives

section Allowance

/-- How many more sequence numbers than queued bytes may be in flight. -/
structure Slack where
  /-- in `TS_ESTABLISHED` -/
  estab : Nat
  /-- in `TS_FIN_WAIT_I` and `TS_CLOSING` -/
  finWait : Nat
  /-- in `TS_LAST_ACK` -/
  lastAck : Nat

/-- The allowance of a state. -/
def Slack.of (k : Slack) : TcpState → Nat
  | .established => k.estab
  | .finWaitI | .closing => k.finWait
  | .lastAck => k.lastAck
  | .synSent | .synRecv | .timeWait => 1
  | .init | .listen | .finWaitII | .closeWait | .closed => 0

/-- The invariant of the sending half. -/
structure SendInv (cfg : TcpConfig) (k : Slack) (tcb : Tcb) : Prop where
  dead : tcb.inHtable = false → tcb.onRtoList = false ∧ tcb.onSlowList = false
  resting :
    tcb.inHtable = true →
      tcb.state ≠ .init ∧ tcb.state ≠ .closeWait ∧ tcb.state ≠ .closed
  handshake :
    tcb.inHtable = true → tcb.state = .synSent ∨ tcb.state = .synRecv →
      tcb.snd.una = tcb.snd.iss ∧ tcb.snd.nxt = tcb.snd.iss + 1 ∧ queued tcb = []
  bound : tcb.inHtable = true → QueueFlight cfg (k.of tcb.state) tcb

/-- The allowance covers the FINs and the SYN that a step may leave in flight. -/
structure SlackFits (cfg : TcpConfig) (k : Slack) (tcb : Tcb) (i : ConnInput) : Prop where
  finWait : k.estab + 1 ≤ k.finWait
  lastAck : k.estab + 1 ≤ k.lastAck
  small : k.lastAck < 2 ^ 8 ∧ k.finWait < 2 ^ 8
  /-- the application closes before the handshake is complete -/
  closeEarly : tcb.state = .synRecv → i.event = .close → 2 ≤ k.finWait
  /-- the same, from the delivery callback -/
  closeMidway :
    ∀ pcb, tcb.state = .synRecv → i.event = .segment pcb → SynRecvCloses i.answer pcb tcb →
        (pcb.flags.fin = false → 2 ≤ k.estab) ∧ (pcb.flags.fin = true → 3 ≤ k.lastAck)
  /-- the machine takes an ACK that does not cover the SYN as one that does -/
  synUnacked :
    ∀ pcb, tcb.state = .synRecv → i.event = .segment pcb → ReachesAck tcb pcb →
      pcb.recvAck = tcb.snd.una →
        (pcb.flags.fin = false → 1 ≤ k.estab) ∧ (pcb.flags.fin = true → 2 ≤ k.lastAck)
  /-- the delivery callback closes, and the FIN of the same segment is processed -/
  closeTwice :
    ∀ pcb, tcb.state = .established → i.event = .segment pcb →
      ClosesBeforeFin (i.env cfg) pcb (Tsm.start tcb) → k.estab + 2 ≤ k.lastAck

theorem sendInv_dead
    {cfg : TcpConfig} {k : Slack} {tcb : Tcb}
    (hdead : tcb.inHtable = false)
    (hrto : tcb.onRtoList = false)
    (hslow : tcb.onSlowList = false) :
    SendInv cfg k tcb := by
  refine ⟨fun _ => ⟨hrto, hslow⟩, ?_, ?_, ?_⟩ <;>
    (intro hlive; rw [hdead] at hlive; cases hlive)

theorem tcpSilentClose_sendInv
    {cfg : TcpConfig} {k : Slack} (c : Tsm) :
    SendInv cfg k (tcpSilentClose c).tcb := by
  obtain ⟨hdead, hrto, hslow⟩ := tcpSilentClose_dead c
  exact sendInv_dead hdead hrto hslow

theorem SendInv.same
    {cfg : TcpConfig} {k : Slack} {tcb tcb' : Tcb}
    (h : SendInv cfg k tcb)
    (hsame : SameSend tcb tcb') :
    SendInv cfg k tcb' := by
  refine ⟨?_, ?_, ?_, ?_⟩
  · rw [hsame.inHtable, hsame.onRtoList, hsame.onSlowList]
    exact h.dead
  · rw [hsame.inHtable, hsame.state]
    exact h.resting
  · rw [hsame.inHtable, hsame.state, hsame.snd, queued, hsame.retrans]
    exact h.handshake
  · rw [hsame.inHtable, hsame.state]
    exact fun hlive => (h.bound hlive).same hsame

end Allowance

section Stages

variable {cfg : TcpConfig} {k : Nat} {s : TcpState}

/-- A live control block in state `s`, in the middle of a transition. -/
structure At (cfg : TcpConfig) (s : TcpState) (k : Nat) (tcb : Tcb) : Prop where
  live : tcb.inHtable = true
  state : tcb.state = s
  bound : QueueFlight cfg k tcb

theorem At.same
    {tcb tcb' : Tcb}
    (h : At cfg s k tcb)
    (hsame : SameSend tcb tcb') :
    At cfg s k tcb' :=
  ⟨hsame.inHtable.trans h.live, hsame.state.trans h.state, h.bound.same hsame⟩

/-- The states in which a control block can rest after the handshake. -/
def RestState (s : TcpState) : Prop :=
  s ≠ .init ∧ s ≠ .closeWait ∧ s ≠ .closed ∧ s ≠ .synSent ∧ s ≠ .synRecv

theorem At.sendInv
    {slack : Slack} {tcb : Tcb}
    (h : At cfg s k tcb)
    (hs : RestState s)
    (hk : k ≤ slack.of s) :
    SendInv cfg slack tcb := by
  refine ⟨?_, fun _ => ?_, fun _ hshake => ?_, fun _ => ?_⟩
  · intro hdead
    rw [h.live] at hdead
    cases hdead
  · rw [h.state]
    exact ⟨hs.1, hs.2.1, hs.2.2.1⟩
  · rw [h.state] at hshake
    rcases hshake with hshake | hshake
    · exact absurd hshake hs.2.2.2.1
    · exact absurd hshake hs.2.2.2.2
  · rw [h.state]
    exact h.bound.mono hk

theorem At.ackArrived
    {c : Tsm}
    (pcb : Pcb) (finSent : Bool)
    (h : At cfg s k c.tcb)
    (hcfg : ConfigOk cfg) :
    At cfg s k (ackArrived pcb finSent c).tcb := by
  have hbound := h.bound.ackArrived pcb finSent hcfg
  rcases ackArrived_spec pcb finSent hcfg h.bound.queue with heq | ⟨segAck, hacc⟩
  · rw [heq]
    exact h
  · have hothers := hacc.clean.cleaned.others
    refine ⟨?_, ?_, hbound⟩
    · rw [hothers]
      exact h.live
    · rw [hothers]
      exact h.state

theorem At.acked
    {c : Tsm}
    (pcb : Pcb) (finSent : Bool)
    (h : At cfg s k c.tcb)
    (hcfg : ConfigOk cfg) :
    At cfg s k (acked pcb finSent c).tcb := by
  have harrived := h.ackArrived pcb finSent hcfg
  simp only [TransitionPaths.acked, onTcb_tcb, updateSndWnd]
  split
  · exact ⟨harrived.live, harrived.state, harrived.bound.of_eq rfl rfl rfl⟩
  · exact harrived

theorem At.enterFinWaitI
    {c : Tsm}
    (h : At cfg s k c.tcb)
    (hcfg : ConfigOk cfg)
    (hk : k < 2 ^ 16) :
    At cfg .finWaitI (k + 1) (enterFinWaitI cfg c).tcb := by
  have hset : QueueFlight cfg k (setState .finWaitI c).tcb := h.bound.of_eq rfl rfl rfl
  rw [TcpStateMachine.enterFinWaitI, onTcb_tcb, Function.comp_apply, tcpTimerSlowSet_eq,
    tsmScheduleRetransmission_eq]
  exact ⟨h.live, rfl, (hset.sendFin hcfg hk).of_eq rfl rfl rfl⟩

theorem At.enterCloseWait
    {c : Tsm}
    (h : At cfg s k c.tcb)
    (hcfg : ConfigOk cfg)
    (hk : k < 2 ^ 16) :
    At cfg .lastAck (k + 1) (enterCloseWait cfg c).tcb := by
  have hset : QueueFlight cfg k (setState .closeWait c).tcb := h.bound.of_eq rfl rfl rfl
  rw [TcpStateMachine.enterCloseWait, enterLastAck, onTcb_tcb, tsmScheduleRetransmission_eq]
  exact ⟨h.live, rfl, (hset.sendFin hcfg hk).of_eq rfl rfl rfl⟩

theorem At.enterClosing
    {c : Tsm}
    (h : At cfg s k c.tcb) :
    At cfg .closing k (enterClosing cfg c).tcb := by
  rw [TcpStateMachine.enterClosing, onTcb_tcb, tsmScheduleRetransmission_eq]
  exact ⟨h.live, rfl, h.bound.of_eq rfl rfl rfl⟩

theorem At.enterFinWaitII
    {c : Tsm}
    (h : At cfg s k c.tcb) :
    At cfg .finWaitII k (enterFinWaitII cfg c).tcb := by
  rw [TcpStateMachine.enterFinWaitII, onTcb_tcb, tcpTimerSlowSet_eq]
  exact ⟨h.live, rfl, h.bound.of_eq rfl rfl rfl⟩

/-- The connection waits in `TS_TIME_WAIT`, or skips it. -/
theorem At.enterTimeWait
    {slack : Slack} {c : Tsm}
    (h : At cfg s k c.tcb)
    (hk : k ≤ 1) :
    SendInv cfg slack (enterTimeWait cfg c).tcb := by
  unfold TcpStateMachine.enterTimeWait
  simp only
  split
  · exact tcpSilentClose_sendInv _
  · have hwait : At cfg .timeWait k
        (tcpTimerSlowSet cfg cfg.sockopt.tcpoTwaitTo
          ((setState .timeWait c).onTcb (tcpTimerSlowCancel ∘ tcpTimerRtoCancel)).tcb) := by
      rw [tcpTimerSlowSet_eq]
      exact ⟨h.live, rfl, h.bound.of_eq rfl rfl rfl⟩
    exact hwait.sendInv (by simp [RestState]) hk

/-- After receiving text: in the state it was, or closed by the application. -/
theorem At.textDone
    {env : TsmEnv} {pcb : Pcb} {c c' : Tsm}
    (h : At env.cfg s k c.tcb)
    (hs : s = .established ∨ s = .synRecv)
    (hcfg : ConfigOk env.cfg)
    (hk : k < 2 ^ 16)
    (hdone : TextDone env pcb c c') :
    At env.cfg s k c'.tcb ∨
      (textAsksClose env.answer pcb c.tcb = true ∧ At env.cfg .finWaitI (k + 1) c'.tcb) := by
  have hstate : c.tcb.state = .established ∨ c.tcb.state = .synRecv := by
    rw [h.state]
    exact hs
  rcases hdone.of_open hstate with hquiet | ⟨hasks, c₁, hbefore, hafter⟩
  · exact Or.inl (h.same hquiet.same)
  · exact Or.inr ⟨hasks, (At.enterFinWaitI (c := c₁.tcpNotif .sessClosing)
      (h.same hbefore.same) hcfg hk).same hafter.same⟩

end Stages

section Steps

variable {cfg : TcpConfig} {k : Slack}

/-- A live control block of the invariant is at its state. -/
theorem SendInv.at
    {tcb : Tcb}
    (h : SendInv cfg k tcb)
    (hlive : tcb.inHtable = true) :
    At cfg tcb.state (k.of tcb.state) tcb :=
  ⟨hlive, rfl, h.bound hlive⟩

/-- A FIN that answers the peer's one, or a connection that is established. -/
theorem synRecv_sendInv
    {pcb : Pcb} {c : Tsm}
    (env : TsmEnv)
    (hcfg : ConfigOk env.cfg)
    (hinv : SendInv env.cfg k c.tcb)
    (hlive : c.tcb.inHtable = true)
    (hstate : c.tcb.state = .synRecv)
    (hsmall : k.lastAck < 2 ^ 8 ∧ k.finWait < 2 ^ 8)
    (hlast : k.estab + 1 ≤ k.lastAck)
    (hclose :
      SynRecvCloses env.answer pcb c.tcb →
        (pcb.flags.fin = false → 2 ≤ k.estab) ∧ (pcb.flags.fin = true → 3 ≤ k.lastAck))
    (hold :
      ReachesAck c.tcb pcb → pcb.recvAck = c.tcb.snd.una →
        (pcb.flags.fin = false → 1 ≤ k.estab) ∧ (pcb.flags.fin = true → 2 ≤ k.lastAck)) :
    SendInv env.cfg k (synRecvSegment env pcb c).tcb := by
  obtain ⟨huna, hnxt, hempty⟩ := hinv.handshake hlive (Or.inr hstate)
  have hbound := hinv.bound hlive
  rw [hstate] at hbound
  refine synRecvSegment_elim (P := fun c' => SendInv env.cfg k c'.tcb) huna hnxt
    (fun c' hq => hinv.same hq.same) (fun c' _ => tcpSilentClose_sendInv _) ?_
  intro hreach c₀ hc₀ c' hdone
  have hc₀' := hc₀
  -- `j` sequence numbers without a byte are in flight once the ACK is taken
  obtain ⟨j, hj, hjle, hestab, hfin⟩ : ∃ j,
      At env.cfg .synRecv j (c₀.onTcb (setSndWnd pcb)).tcb ∧ j ≤ 1 ∧
      (pcb.flags.fin = false → j ≤ k.estab) ∧
      (pcb.flags.fin = true → j + 1 ≤ k.lastAck) := by
    rcases hc₀ with ⟨hack, rfl⟩ | ⟨-, rfl⟩
    · obtain ⟨hno, hyes⟩ := hold hreach hack
      exact ⟨1, ⟨hlive, hstate, hbound.of_eq rfl rfl rfl⟩, le_rfl, hno, hyes⟩
    · have hne : c.tcb.snd.una ≠ c.tcb.snd.nxt := by
        rw [huna, hnxt]
        bv_omega
      have hdec := flight_incUna hne
      have hf := hbound.flight
      have hinc : QueueFlight env.cfg 0 (incUna c).tcb := by
        refine ⟨hbound.queue, ?_⟩
        have hq : queued (incUna c).tcb = queued c.tcb := rfl
        rw [hq]
        simp only [Slack.of] at hf
        omega
      exact ⟨0, ⟨hlive, hstate, hinc.of_eq rfl rfl rfl⟩, by omega, by omega, by omega⟩
  rcases hj.textDone (Or.inr rfl) hcfg (by omega) hdone with hkept | ⟨hasks, hclosed⟩
  · refine ⟨fun hno => ?_, fun hyes => ?_⟩
    · have hat : At env.cfg .established j (enterEstablished (c'.onTcb tcpTimerRtoCancel)).tcb :=
        ⟨hkept.live, rfl, hkept.bound.of_eq rfl rfl rfl⟩
      exact hat.sendInv (by simp [RestState]) (hestab hno)
    · have hat := At.enterCloseWait (c := c'.tcpNotif .sessClosing) hkept hcfg (by omega)
      exact hat.sendInv (by simp [RestState]) (hfin hyes)
  · obtain ⟨hslack, hslack'⟩ := hclose (synRecvCloses_of huna hnxt hreach hc₀' hasks)
    refine ⟨fun hno => ?_, fun hyes => ?_⟩
    · have hestab' := hslack hno
      have hat :
          At env.cfg .established (j + 1) (enterEstablished (c'.onTcb tcpTimerRtoCancel)).tcb :=
        ⟨hclosed.live, rfl, hclosed.bound.of_eq rfl rfl rfl⟩
      exact hat.sendInv (by simp [RestState]) (by simp only [Slack.of]; omega)
    · have hlast' := hslack' hyes
      have hat := At.enterCloseWait (c := c'.tcpNotif .sessClosing) hclosed hcfg (by omega)
      exact hat.sendInv (by simp [RestState]) (by simp only [Slack.of]; omega)

theorem synSent_sendInv
    {pcb : Pcb} {c : Tsm}
    (env : TsmEnv)
    (hinv : SendInv env.cfg k c.tcb)
    (hlive : c.tcb.inHtable = true)
    (hstate : c.tcb.state = .synSent) :
    SendInv env.cfg k (synSentSegment env pcb c).tcb := by
  obtain ⟨huna, hnxt, hempty⟩ := hinv.handshake hlive (Or.inl hstate)
  have hbound := hinv.bound hlive
  rw [hstate] at hbound
  refine synSentSegment_elim (P := fun c' => SendInv env.cfg k c'.tcb) huna hnxt
    (fun c' hq => hinv.same hq.same) (fun c' _ => tcpSilentClose_sendInv _) ?_ ?_
  · -- both sides have sent a SYN
    rintro - c' hq
    have hlive' : c'.tcb.inHtable = true := hq.same.inHtable.trans hlive
    have hbound' := hbound.same hq.same
    rw [enterSynRecv, onTcb_tcb, tsmScheduleRetransmission_eq]
    refine ⟨fun hdead => ?_, fun _ => by simp [setState], fun _ _ => ?_, fun _ =>
      hbound'.of_eq rfl rfl rfl⟩
    · rw [show c'.tcb.inHtable = false from hdead] at hlive'
      cases hlive'
    · simp only [queued, tcpNotif_tcb, setState, emit_tcb, onTcb_tcb, hq.same.snd,
        hq.same.retrans]
      exact ⟨huna, hnxt, hempty⟩
  · intro c' hq c₁ hdone c₂ hq₂
    have hlive' : c'.tcb.inHtable = true := hq.same.inHtable.trans hlive
    refine SendInv.same ?_ hq₂.same
    rcases hdone.of_synSent (hq.same.state.trans hstate) with hkept | ⟨-, c₀, -, hafter⟩
    · have hne : c'.tcb.snd.una ≠ c'.tcb.snd.nxt := by
        rw [hq.same.snd, huna, hnxt]
        bv_omega
      have hdec := flight_incUna hne
      have hf := (hbound.same hq.same).flight
      have hinc : QueueFlight env.cfg 0 (synAcked pcb c').tcb := by
        refine ⟨(hbound.same hq.same).queue, ?_⟩
        have hq' : queued (synAcked pcb c').tcb = queued c'.tcb := rfl
        have hfl : flight (synAcked pcb c').tcb = flight (incUna c').tcb := rfl
        rw [hq', hfl]
        simp only [Slack.of] at hf
        omega
      have hat : At env.cfg .established 0 (enterEstablished (c₁.onTcb tcpTimerRtoCancel)).tcb :=
        ⟨hkept.same.inHtable.trans hlive', rfl, (hinc.same hkept.same).of_eq rfl rfl rfl⟩
      exact hat.sendInv (by simp [RestState]) (Nat.zero_le _)
    · -- the callback closed a connection that was not established yet
      obtain ⟨hdead, -, hslow⟩ := tcpSilentClose_dead ((setState .closed
        (c₀.tcpNotif .sessClosing)).tcpNotif .sessClosed)
      exact sendInv_dead (hafter.same.inHtable.trans hdead) rfl
        (hafter.same.onSlowList.trans hslow)

theorem estab_sendInv
    {pcb : Pcb} {c : Tsm}
    (env : TsmEnv)
    (hcfg : ConfigOk env.cfg)
    (hinv : SendInv env.cfg k c.tcb)
    (hlive : c.tcb.inHtable = true)
    (hstate : c.tcb.state = .established)
    (hsmall : k.lastAck < 2 ^ 8 ∧ k.finWait < 2 ^ 8)
    (hwait : k.estab + 1 ≤ k.finWait)
    (hlast : k.estab + 1 ≤ k.lastAck)
    (htwice : ClosesBeforeFin env pcb c → k.estab + 2 ≤ k.lastAck) :
    SendInv env.cfg k (estabSegment env pcb c).tcb := by
  have hat := hinv.at hlive
  rw [hstate] at hat
  have hacked := hat.acked pcb false hcfg
  have hestab : k.estab < 2 ^ 16 := by omega
  refine estabSegment_text_elim (P := fun c' => SendInv env.cfg k c'.tcb)
    (fun c' hq => hinv.same hq.same) (fun c' _ => tcpSilentClose_sendInv _) ?_ ?_
  · rintro -
    exact (hat.ackArrived pcb false hcfg).sendInv (by simp [RestState]) le_rfl
  intro hreach husable c' hq
  have hdone := (receiveAndAck_done env pcb (acked pcb false c)).trans_quiet hq
  refine ⟨fun _ => ?_, fun htaken => ?_⟩
  · rcases hacked.textDone (Or.inl rfl) hcfg hestab hdone with hkept | ⟨-, hclosed⟩
    · exact hkept.sendInv (by simp [RestState]) le_rfl
    · exact hclosed.sendInv (by simp [RestState]) hwait
  · rcases hacked.textDone (Or.inl rfl) hcfg hestab hdone with hkept | ⟨hasks, hclosed⟩
    · exact (At.enterCloseWait (c := c'.tcpNotif .sessClosing) hkept hcfg hestab).sendInv
        (by simp [RestState]) hlast
    · obtain ⟨hrcv, hbuf⟩ := acked_receiving pcb false c
      rw [textAsksClose_congr env.answer pcb hrcv hbuf] at hasks
      have hslack := htwice ⟨hreach, husable, hasks, htaken⟩
      exact (At.enterCloseWait (c := c'.tcpNotif .sessClosing) hclosed hcfg
        (by simp only [Slack.of]; omega)).sendInv (by simp [RestState]) hslack

/-- The number of our FIN is the only one in flight when the segment acknowledges it. -/
theorem ourFinAcked_flight
    {pcb : Pcb} {tcb : Tcb}
    (h : ourFinAcked pcb tcb = true) :
    flight tcb = 1 ∧ tcb.snd.una ≠ tcb.snd.nxt := by
  simp only [ourFinAcked, Bool.and_eq_true, decide_eq_true_eq] at h
  rw [flight, h.1]
  constructor <;> bv_omega

theorem finWaitI_sendInv
    {pcb : Pcb} {c : Tsm}
    (env : TsmEnv)
    (hcfg : ConfigOk env.cfg)
    (hinv : SendInv env.cfg k c.tcb)
    (hlive : c.tcb.inHtable = true)
    (hstate : c.tcb.state = .finWaitI) :
    SendInv env.cfg k (finWaitISegment env pcb c).tcb := by
  have hat := hinv.at hlive
  rw [hstate] at hat
  have hacked := hat.acked pcb true hcfg
  have hours : ourFinAcked pcb (acked pcb true c).tcb = true →
      At env.cfg .finWaitI 0 (incUna (acked pcb true c)).tcb := by
    intro hours
    obtain ⟨hone, hne⟩ := ourFinAcked_flight hours
    have hdec := flight_incUna hne
    exact ⟨hacked.live, hacked.state, hacked.bound.queue, by omega⟩
  refine finWaitISegment_elim (P := fun c' => SendInv env.cfg k c'.tcb) hacked.state
    (fun c' hq => hinv.same hq.same) (fun c' _ => tcpSilentClose_sendInv _) ?_ ?_ ?_ ?_ ?_ ?_
  · rintro -
    exact (hat.ackArrived pcb true hcfg).sendInv (by simp [RestState]) le_rfl
  · rintro - - c' hq
    exact (hacked.same hq.same).sendInv (by simp [RestState]) le_rfl
  · rintro - - - c' hq
    have hat' := hacked.same hq.same
    have hcancel : At env.cfg .finWaitI k.finWait (c'.onTcb tcpTimerSlowCancel).tcb :=
      ⟨hat'.live, hat'.state, hat'.bound.of_eq rfl rfl rfl⟩
    exact hcancel.enterClosing.sendInv (by simp [RestState]) le_rfl
  · rintro - hacked' - c' hq
    exact ((hours hacked').same hq.same).sendInv (by simp [RestState]) (Nat.zero_le _)
  · rintro - hacked' c' hq
    have hat' := (hours hacked').same hq.same
    have hcancel : At env.cfg .finWaitI 0 (c'.onTcb tcpTimerSlowCancel).tcb :=
      ⟨hat'.live, hat'.state, hat'.bound.of_eq rfl rfl rfl⟩
    exact hcancel.enterFinWaitII.sendInv (by simp [RestState]) le_rfl
  · rintro - hacked' c' hq
    have hat' := (hours hacked').same hq.same
    have hcancel : At env.cfg .finWaitI 0 (c'.onTcb tcpTimerSlowCancel).tcb :=
      ⟨hat'.live, hat'.state, hat'.bound.of_eq rfl rfl rfl⟩
    exact hcancel.enterTimeWait (Nat.zero_le _)

theorem finWaitII_sendInv
    {pcb : Pcb} {c : Tsm}
    (env : TsmEnv)
    (hcfg : ConfigOk env.cfg)
    (hinv : SendInv env.cfg k c.tcb)
    (hlive : c.tcb.inHtable = true)
    (hstate : c.tcb.state = .finWaitII) :
    SendInv env.cfg k (finWaitIISegment env pcb c).tcb := by
  have hat := hinv.at hlive
  rw [hstate] at hat
  have hacked := hat.acked pcb false hcfg
  refine finWaitIISegment_elim (P := fun c' => SendInv env.cfg k c'.tcb) hacked.state
    (fun c' hq => hinv.same hq.same) (fun c' _ => tcpSilentClose_sendInv _) ?_ ?_ ?_
  · rintro -
    exact (hat.ackArrived pcb false hcfg).sendInv (by simp [RestState]) le_rfl
  · rintro - c' hq
    exact (hacked.same hq.same).sendInv (by simp [RestState]) le_rfl
  · rintro - c' hq c'' hq'
    have hat' := hacked.same hq.same
    have hcancel : At env.cfg .finWaitII 0 (c'.onTcb tcpTimerSlowCancel).tcb :=
      ⟨hat'.live, hat'.state, hat'.bound.of_eq rfl rfl rfl⟩
    exact (hcancel.same hq'.same).enterTimeWait (Nat.zero_le _)

theorem closing_sendInv
    {pcb : Pcb} {c : Tsm}
    (env : TsmEnv)
    (hcfg : ConfigOk env.cfg)
    (hinv : SendInv env.cfg k c.tcb)
    (hlive : c.tcb.inHtable = true)
    (hstate : c.tcb.state = .closing) :
    SendInv env.cfg k (closingSegment env pcb c).tcb := by
  have hat := hinv.at hlive
  rw [hstate] at hat
  have hacked := hat.acked pcb true hcfg
  refine closingSegment_elim (P := fun c' => SendInv env.cfg k c'.tcb)
    (fun c' hq => hinv.same hq.same) (fun c' _ => tcpSilentClose_sendInv _) ?_ ?_ ?_
  · rintro -
    exact (hat.ackArrived pcb true hcfg).sendInv (by simp [RestState]) le_rfl
  · rintro - -
    exact hacked.sendInv (by simp [RestState]) le_rfl
  · rintro - hours
    obtain ⟨hone, -⟩ := ourFinAcked_flight hours
    have hcancel :
        At env.cfg .closing 1 ((acked pcb true c).onTcb tcpTimerRtoCancel).tcb := by
      refine ⟨hacked.live, hacked.state, hacked.bound.queue, ?_⟩
      have hfl : flight ((acked pcb true c).onTcb tcpTimerRtoCancel).tcb =
          flight (acked pcb true c).tcb := rfl
      omega
    exact hcancel.enterTimeWait le_rfl

theorem timeWait_sendInv
    {pcb : Pcb} {c : Tsm}
    (env : TsmEnv)
    (hinv : SendInv env.cfg k c.tcb)
    (hlive : c.tcb.inHtable = true)
    (hstate : c.tcb.state = .timeWait) :
    SendInv env.cfg k (timeWaitSegment env pcb c).tcb := by
  have hat := hinv.at hlive
  rw [hstate] at hat
  refine timeWaitSegment_elim (P := fun c' => SendInv env.cfg k c'.tcb)
    (fun c' hq => hinv.same hq.same) (fun c' _ => tcpSilentClose_sendInv _) ?_
  intro c' hq
  have hat' := hat.same hq.same
  have hwait : At env.cfg .timeWait 1
      (c'.onTcb (tcpTimerSlowSet env.cfg env.cfg.sockopt.tcpoTwaitTo ∘
        tcpTimerSlowCancel)).tcb := by
    rw [onTcb_tcb, Function.comp_apply, tcpTimerSlowSet_eq]
    exact ⟨hat'.live, hat'.state, hat'.bound.of_eq rfl rfl rfl⟩
  exact hwait.sendInv (by simp [RestState]) le_rfl

/-- The timers of a live control block are not part of the invariant. -/
theorem SendInv.of_live
    {tcb tcb' : Tcb}
    (h : SendInv cfg k tcb)
    (hlive : tcb.inHtable = true)
    (hhtable : tcb'.inHtable = tcb.inHtable)
    (hstate : tcb'.state = tcb.state)
    (hsnd : tcb'.snd = tcb.snd)
    (hretrans : tcb'.retrans = tcb.retrans) :
    SendInv cfg k tcb' := by
  refine ⟨fun hdead => ?_, ?_, ?_, ?_⟩
  · rw [hhtable, hlive] at hdead
    cases hdead
  · rw [hhtable, hstate]
    exact h.resting
  · rw [hhtable, hstate, hsnd, queued, hretrans]
    exact h.handshake
  · rw [hhtable, hstate]
    exact fun hl => (h.bound hl).of_eq (by rw [hsnd]) (by rw [hsnd]) hretrans

theorem notifyWinUnavail_tcb
    (full : Bool) (c : Tsm) :
    (notifyWinUnavail full c).tcb = c.tcb := by
  unfold notifyWinUnavail
  split <;> rfl

/-- `tcp_data_send()` leaves the state alone. -/
theorem tcpDataSend_state
    {env : TsmEnv} {c : Tsm} {data : TsmDataArg}
    (hmtu : 0 < env.cfg.mtu)
    (h : QueueOk env.cfg.sockopt.tcpoWinSize.toNat c.tcb.retrans)
    (hdata : SendChainOk c.tcb data.tdaMbuf) :
    (tcpDataSend env c data).tcb.state = c.tcb.state ∧
      (tcpDataSend env c data).tcb.inHtable = c.tcb.inHtable := by
  rcases tcpDataSend_spec hmtu h hdata with heq | ⟨tcb', ns, hsent⟩
  · rw [heq]
    exact ⟨rfl, rfl⟩
  · rw [hsent.result]
    have hothers := hsent.stored.others
    constructor
    · change tcb'.state = c.tcb.state
      rw [hothers]
    · change tcb'.inHtable = c.tcb.inHtable
      rw [hothers]

theorem tsmSend_sendInv
    {c : Tsm} {data : TsmDataArg}
    (env : TsmEnv)
    (hcfg : ConfigOk env.cfg)
    (hinv : SendInv env.cfg k c.tcb)
    (hlive : c.tcb.inHtable = true)
    (hdata : SendChainOk c.tcb data.tdaMbuf) :
    SendInv env.cfg k (tsmSend env c data).tcb := by
  have hbound := hinv.bound hlive
  have hkeep : SendInv env.cfg k (c.fail .enotconn).tcb := hinv
  cases hstate : c.tcb.state with
  | established =>
      rw [hstate] at hbound
      have hrun : tsmSend env c data = tsmSendData env c data := by
        simp only [tsmSend, hstate]
      obtain ⟨hs, ht⟩ := tcpDataSend_state hcfg.mtu hbound.queue hdata
      have hat : At env.cfg .established k.estab (tsmSendData env c data).tcb := by
        rw [tsmSendData, notifyWinUnavail_tcb, onTcb_tcb, tsmScheduleRetransmission_eq]
        exact ⟨ht.trans hlive, hs.trans hstate,
          (hbound.tcpDataSend hcfg hdata).of_eq rfl rfl rfl⟩
      rw [hrun]
      exact hat.sendInv (by simp [RestState]) le_rfl
  | closeWait =>
      exact absurd hstate (hinv.resting hlive).2.1
  | init | listen | synSent | synRecv | finWaitI | finWaitII | lastAck | closing | timeWait
  | closed =>
      simpa only [tsmSend, hstate] using hkeep

theorem tsmClose_sendInv
    {c : Tsm}
    (hcfg : ConfigOk cfg)
    (hinv : SendInv cfg k c.tcb)
    (hlive : c.tcb.inHtable = true)
    (hsmall : k.lastAck < 2 ^ 8 ∧ k.finWait < 2 ^ 8)
    (hwait : k.estab + 1 ≤ k.finWait)
    (hearly : c.tcb.state = .synRecv → 2 ≤ k.finWait) :
    SendInv cfg k (tsmClose cfg c).tcb := by
  have hat := hinv.at hlive
  have hkeep : SendInv cfg k (c.fail .enotconn).tcb := hinv
  cases hstate : c.tcb.state with
  | init =>
      exact absurd hstate (hinv.resting hlive).1
  | closeWait =>
      exact absurd hstate (hinv.resting hlive).2.1
  | listen | synSent =>
      simp only [tsmClose, hstate]
      exact tcpSilentClose_sendInv _
  | synRecv =>
      rw [hstate] at hat
      simp only [tsmClose, hstate]
      exact (At.enterFinWaitI (c := c.tcpNotif .sessClosing) hat hcfg
        (by simp [Slack.of])).sendInv (by simp [RestState]) (hearly hstate)
  | established =>
      rw [hstate] at hat
      simp only [tsmClose, hstate]
      exact (At.enterFinWaitI (c := c.tcpNotif .sessClosing) hat hcfg
        (by simp only [Slack.of]; omega)).sendInv (by simp [RestState]) hwait
  | finWaitI | finWaitII | lastAck | closing | timeWait | closed =>
      simpa only [tsmClose, hstate] using hkeep

/-- A retransmission timeout: the connection is closed, or something is sent again. -/
theorem retransOrClose_sendInv
    {env : TsmEnv} {c : Tsm} {limit : BitVec 8} {giveUp resend : Tsm → Tsm}
    (hgive : SendInv env.cfg k (giveUp c).tcb)
    (hresend : SendInv env.cfg k (resend c).tcb)
    (hlive : (resend c).tcb.inHtable = true) :
    SendInv env.cfg k (retransOrClose env limit giveUp resend c).tcb := by
  unfold retransOrClose
  split
  · exact hgive
  · rw [onTcb_tcb, tsmScheduleRetransmission_eq]
    exact hresend.of_live hlive rfl rfl rfl rfl

theorem tsmRetransData_at
    {env : TsmEnv} {c : Tsm} {j : Nat} {s : TcpState}
    (hcfg : ConfigOk env.cfg)
    (hat : At env.cfg s j c.tcb) :
    At env.cfg s j (tsmRetransData env c).tcb := by
  have hw := hcfg.winSize
  have hbound := hat.bound.tcpDataRetrans hcfg
  obtain ⟨heq, -⟩ := tcpDataRetrans_spec env hcfg.mtu hat.bound.queue (by omega)
  rw [tsmRetransData, notifyWinUnavail_tcb]
  refine ⟨?_, ?_, hbound⟩
  · rw [heq]
    exact hat.live
  · rw [heq]
    exact hat.state

theorem tcpHandleRetransTo_sendInv
    {c : Tsm}
    (env : TsmEnv)
    (hcfg : ConfigOk env.cfg)
    (hinv : SendInv env.cfg k c.tcb)
    (hlive : c.tcb.inHtable = true) :
    SendInv env.cfg k (tcpHandleRetransTo env c).tcb := by
  have hfired : SendInv env.cfg k
      (c.onTcb fun tcb => { tcb with onRtoList := false, retransCnt := tcb.retransCnt + 1 }).tcb :=
    hinv.of_live hlive rfl rfl rfl rfl
  unfold tcpHandleRetransTo tsmRetransmissionTimeout
  cases hstate : c.tcb.state with
  | synSent | synRecv | finWaitI | lastAck | closing =>
      simp only [onTcb_tcb, hstate]
      exact retransOrClose_sendInv (tcpSilentClose_sendInv _) hfired hlive
  | established =>
      simp only [onTcb_tcb, hstate]
      have hat := hfired.at hlive
      rw [show (c.onTcb fun tcb =>
        { tcb with onRtoList := false, retransCnt := tcb.retransCnt + 1 }).tcb.state =
          .established from hstate] at hat
      have hsent := tsmRetransData_at hcfg hat
      exact retransOrClose_sendInv (tcpSilentClose_sendInv _)
        (hsent.sendInv (by simp [RestState]) le_rfl) hsent.live
  | closeWait =>
      exact absurd hstate (hinv.resting hlive).2.1
  | init | listen | finWaitII | timeWait | closed =>
      simpa only [onTcb_tcb, hstate] using hfired

theorem tcpHandleSlowTo_sendInv
    {c : Tsm}
    (env : TsmEnv)
    (hinv : SendInv env.cfg k c.tcb)
    (hlive : c.tcb.inHtable = true) :
    SendInv env.cfg k (tcpHandleSlowTo env c).tcb := by
  have hfired : SendInv env.cfg k
      (c.onTcb fun tcb => { tcb with onSlowList := false }).tcb :=
    hinv.of_live hlive rfl rfl rfl rfl
  have hclose : ∀ s, SendInv env.cfg k
      (closeIn s (c.onTcb fun tcb => { tcb with onSlowList := false })).tcb := by
    intro s
    unfold closeIn
    split
    · exact tcpSilentClose_sendInv _
    · exact hfired
  unfold tcpHandleSlowTo
  simp only
  split
  · exact hclose _
  · exact hclose _
  · exact hclose _
  all_goals exact hfired

/-- A control block with a SYN in flight and nothing else. -/
structure SynInFlight (s : TcpState) (tcb : Tcb) : Prop where
  live : tcb.inHtable = true
  state : tcb.state = s
  una : tcb.snd.una = 0
  nxt : tcb.snd.nxt = 1
  iss : tcb.snd.iss = 0
  retrans : tcb.retrans = { dataMbufs := [], lastMbuf := none, totalSize := 0 }

/-- An active open sends a SYN. -/
theorem openedActive_eq
    (env : TsmEnv) (c : Tsm) :
    ∃ tcb, (tcpOpenV4Connection env true c).tcb = tsmScheduleRetransmission env.cfg tcb ∧
      SynInFlight .synSent tcb := by
  refine
    ⟨{ c.tcb with
        state := .synSent
        active := true
        finRcvd := false
        rstRcvd := false
        rcvFinSeq := 0
        snd := { una := 0, nxt := 1, wnd := 0, wl1 := 0, wl2 := 0, iss := 0 }
        rcv := { nxt := 0, wnd := env.cfg.sockopt.tcpoWinSize, up := 0, irs := 0 }
        retransCnt := 0
        retrans := { dataMbufs := [], lastMbuf := none, totalSize := 0 }
        rcvBuf := []
        inHtable := true }, rfl, ?_⟩
  constructor <;> rfl

/-- The clone of a listening block answers with a SYN. -/
theorem accepted_eq
    (env : TsmEnv) (syn : Pcb) :
    ∃ tcb,
      (listenClone env syn (listenerTcb env)).tcb = tsmScheduleRetransmission env.cfg tcb ∧
      SynInFlight .synRecv tcb := by
  refine
    ⟨(setState .synRecv
      ((Tsm.start (synReceived syn { listenerTcb env with inHtable := true })).onTcb
        fun tcb => { tcb with
          snd := { tcb.snd with una := tcb.snd.iss, nxt := tcb.snd.iss + 1 } })).tcb, rfl, ?_⟩
  constructor <;> rfl

theorem SynInFlight.sendInv
    {s : TcpState} {tcb : Tcb}
    (h : SynInFlight s tcb)
    (hs : s = .synSent ∨ s = .synRecv) :
    SendInv cfg k (tsmScheduleRetransmission cfg tcb) := by
  rw [tsmScheduleRetransmission_eq]
  refine ⟨fun hdead => ?_, fun _ => ?_, fun _ _ => ⟨?_, ?_, ?_⟩, fun _ => ?_⟩
  · exact absurd (h.live.symm.trans hdead) (by decide)
  · simp only [h.state]
    rcases hs with rfl | rfl <;> simp
  · simp only [h.una, h.iss]
  · simp only [h.nxt, h.iss]
    rfl
  · simp only [queued, h.retrans, chainBytes_nil]
  · have hone : k.of s = 1 := by
      rcases hs with rfl | rfl <;> rfl
    have hflight : flight tcb = 1 := by
      rw [flight, h.una, h.nxt]
      rfl
    have hbound : QueueFlight cfg 1 tcb := by
      refine ⟨h.retrans ▸ queueOk_empty _, ?_⟩
      rw [hflight]
      omega
    simp only [h.state, hone]
    exact hbound.of_eq rfl rfl rfl

theorem opened_sendInv
    (env : TsmEnv) (active : Bool) (c : Tsm) :
    SendInv env.cfg k (tcpOpenV4Connection env active c).tcb := by
  cases active with
  | true =>
      obtain ⟨tcb, heq, hsyn⟩ := openedActive_eq env c
      rw [heq]
      exact hsyn.sendInv (Or.inl rfl)
  | false =>
      have hstate : (tcpOpenV4Connection env false c).tcb.state = .listen := rfl
      have hlive : (tcpOpenV4Connection env false c).tcb.inHtable = true := rfl
      refine ⟨fun h => ?_, fun _ => ?_, fun _ h => ?_, fun _ => ?_⟩
      · rw [hlive] at h
        cases h
      · rw [hstate]
        simp
      · rw [hstate] at h
        simp at h
      · exact ⟨queueOk_empty _, (show ((0 : U32) - 0).toNat ≤ 0 + 0 by decide)⟩

theorem accepted_sendInv
    (env : TsmEnv) (syn : Pcb) :
    SendInv env.cfg k (listenClone env syn (listenerTcb env)).tcb := by
  obtain ⟨tcb, heq, hsyn⟩ := accepted_eq env syn
  rw [heq]
  exact hsyn.sendInv (Or.inr rfl)

/-- A timer that is set belongs to a live control block. -/
theorem SendInv.live_of_timer
    {tcb : Tcb}
    (h : SendInv cfg k tcb)
    (htimer : tcb.onRtoList = true ∨ tcb.onSlowList = true) :
    tcb.inHtable = true := by
  by_contra hdead
  obtain ⟨hrto, hslow⟩ := h.dead (by simpa using hdead)
  rcases htimer with htimer | htimer
  · rw [hrto] at htimer
    cases htimer
  · rw [hslow] at htimer
    cases htimer

/-- The invariant is preserved by every step that the allowance fits. -/
theorem sendInv_step
    {tcb : Tcb} {i : ConnInput}
    (hcfg : ConfigOk cfg)
    (hinv : SendInv cfg k tcb)
    (hlegal : ConnLegal tcb i)
    (hfits : SlackFits cfg k tcb i) :
    SendInv cfg k (connStep cfg tcb i).tcb := by
  unfold connStep
  cases hevent : i.event with
  | «open» active =>
      exact opened_sendInv (i.env cfg) active (Tsm.start tcb)
  | accept syn =>
      exact accepted_sendInv (i.env cfg) syn
  | send data =>
      simp only [ConnLegal, hevent] at hlegal
      exact tsmSend_sendInv (i.env cfg) (c := Tsm.start tcb) hcfg hinv hlegal.1 hlegal.2
  | close =>
      simp only [ConnLegal, hevent] at hlegal
      exact tsmClose_sendInv (c := Tsm.start tcb) hcfg hinv hlegal hfits.small hfits.finWait
        fun hs => hfits.closeEarly hs hevent
  | rtoTimer =>
      simp only [ConnLegal, hevent] at hlegal
      exact tcpHandleRetransTo_sendInv (i.env cfg) (c := Tsm.start tcb) hcfg hinv
        (hinv.live_of_timer (Or.inl hlegal))
  | slowTimer =>
      simp only [ConnLegal, hevent] at hlegal
      exact tcpHandleSlowTo_sendInv (i.env cfg) (c := Tsm.start tcb) hinv
        (hinv.live_of_timer (Or.inr hlegal))
  | purge =>
      exact tcpSilentClose_sendInv _
  | segment pcb =>
      simp only [ConnLegal, hevent] at hlegal
      unfold tsmSegmentArrives
      cases hstate : tcb.state with
      | init =>
          exact absurd hstate (hinv.resting hlegal).1
      | closeWait =>
          exact absurd hstate (hinv.resting hlegal).2.1
      | closed =>
          exact absurd hstate (hinv.resting hlegal).2.2
      | listen =>
          simp only [Tsm.start, hstate]
          exact listenSegment_elim (P := fun c' => SendInv cfg k c'.tcb)
            fun c' hq => hinv.same hq.same
      | synSent =>
          simp only [Tsm.start, hstate]
          exact synSent_sendInv (i.env cfg) hinv hlegal hstate
      | synRecv =>
          simp only [Tsm.start, hstate]
          exact synRecv_sendInv (i.env cfg) hcfg hinv hlegal hstate hfits.small
            hfits.lastAck (fun hcloses => hfits.closeMidway pcb hstate hevent hcloses)
            fun hreach hack => hfits.synUnacked pcb hstate hevent hreach hack
      | established =>
          simp only [Tsm.start, hstate]
          exact estab_sendInv (i.env cfg) hcfg hinv hlegal hstate hfits.small
            hfits.finWait hfits.lastAck
            fun hcloses => hfits.closeTwice pcb hstate hevent hcloses
      | finWaitI =>
          simp only [Tsm.start, hstate]
          exact finWaitI_sendInv (i.env cfg) hcfg hinv hlegal hstate
      | finWaitII =>
          simp only [Tsm.start, hstate]
          exact finWaitII_sendInv (i.env cfg) hcfg hinv hlegal hstate
      | lastAck =>
          simp only [Tsm.start, hstate]
          exact lastAckSegment_elim (P := fun c' => SendInv cfg k c'.tcb)
            (fun c' hq => hinv.same hq.same) fun c' _ => tcpSilentClose_sendInv _
      | closing =>
          simp only [Tsm.start, hstate]
          exact closing_sendInv (i.env cfg) hcfg hinv hlegal hstate
      | timeWait =>
          simp only [Tsm.start, hstate]
          exact timeWait_sendInv (i.env cfg) hinv hlegal hstate

theorem defaultConfig_ok :
    ConfigOk defaultConfig :=
  ⟨by decide, by decide⟩

/-- A control block that was never opened. -/
theorem blankTcb_sendInv :
    SendInv cfg k blankTcb :=
  sendInv_dead rfl rfl rfl

/-- An allowance that every step fits. -/
def anySlack : Slack :=
  { estab := 2, finWait := 3, lastAck := 4 }

theorem anySlack_fits
    (tcb : Tcb) (i : ConnInput) :
    SlackFits cfg anySlack tcb i := by
  refine ⟨by decide, by decide, by decide, ?_, ?_, ?_, ?_⟩
  · exact fun _ _ => by decide
  · exact fun _ _ _ _ => ⟨fun _ => by decide, fun _ => by decide⟩
  · exact fun _ _ _ _ _ => ⟨fun _ => by decide, fun _ => by decide⟩
  · exact fun _ _ _ _ => by decide

theorem flight_small
    {tcb : Tcb}
    (hcfg : ConfigOk cfg)
    (hinv : SendInv cfg anySlack tcb)
    (hlive : tcb.inHtable = true) :
    flight tcb < 2 ^ 16 + 4 := by
  have hlt := (hinv.bound hlive).flight_lt hcfg
  have hk : anySlack.of tcb.state ≤ 4 := by
    cases tcb.state <;> decide
  omega

end Steps

end SendInvariants
end Warp17
