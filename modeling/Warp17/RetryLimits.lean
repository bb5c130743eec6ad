import Warp17.SessionTimers

/-!
# Bounded retries

Every retransmission timeout adds one to an eight-bit counter and gives up when the counter
has the value of the limit of the present state.  The counter is shared by all states and
starts again only when an acknowledgement drops bytes, or when nothing is outstanding, so a
state can be entered with a counter that is already at its limit or above it; the test for
equality then fails until the counter has gone all the way round.

**Results**
- `retransTimeout_closes`, `retransTimeout_again`: what one timeout does, by the counter.
- `retries_bounded_iff`: the retries of a silent peer's session are bounded exactly when
  its timer runs and its counter is below the limit of its state.
-/

namespace Warp17
namespace RetryLimits

open GuardedRuns SequenceComparison MbufChains ControlBlock SendQueue RetransmissionQueue
open TcpStateMachine TransitionPaths ConnectionRuns SendInvariants SessionTimers

/-- The states that retransmit. -/
def Retransmits (s : TcpState) : Prop :=
  s = .synSent ∨ s = .synRecv ∨ s = .established ∨ s = .finWaitI ∨ s = .lastAck ∨ s = .closing

instance (s : TcpState) : Decidable (Retransmits s) :=
  inferInstanceAs (Decidable (_ ∨ _))

/-- The retransmission timer expires, and nothing else happens. -/
def Expiry (i : ConnInput) : Prop :=
  i.event = .rtoTimer

section Timeout

variable {cfg : TcpConfig}

/-- A session that is being retransmitted. -/
structure Waiting (cfg : TcpConfig) (s : TcpState) (tcb : Tcb) : Prop where
  send : SendInv cfg anySlack tcb
  live : tcb.inHtable = true
  state : tcb.state = s
  holds : HoldsUnacked tcb

/-- The control block of a timeout, before the state machine is told. -/
def expired (tcb : Tcb) : Tsm :=
  (Tsm.start tcb).onTcb fun tcb =>
    { tcb with onRtoList := false, retransCnt := tcb.retransCnt + 1 }

theorem connStep_expiry
    {tcb : Tcb} {i : ConnInput}
    (hi : Expiry i) :
    connStep cfg tcb i = tsmRetransmissionTimeout (i.env cfg) (expired tcb) := by
  have hevent : i.event = .rtoTimer := hi
  simp only [connStep, hevent]
  rfl

/-- A session that is given up is closed, and the test case is told. -/
structure GivenUp (c : Tsm) : Prop where
  dead : c.tcb.inHtable = false
  told : TcpOutput.notif .sessClosed ∈ c.out

theorem givenUp_enterClosed
    (c : Tsm) :
    GivenUp (enterClosed c) := by
  refine ⟨(tcpSilentClose_dead _).1, ?_⟩
  unfold enterClosed tcpSilentClose
  simp only
  split
  · simp
  · simp [Tsm.tcpSendCtrlPkt, Tsm.tcpSendCtrlPktWithSseq]

theorem retransOrClose_giveUp
    {env : TsmEnv} {c : Tsm} {limit : BitVec 8} {giveUp resend : Tsm → Tsm}
    (hcnt : c.tcb.retransCnt = limit)
    (hgive : GivenUp (giveUp c)) :
    GivenUp (retransOrClose env limit giveUp resend c) := by
  rw [retransOrClose, if_pos (by simpa [tcpTooManyRetries] using hcnt)]
  exact hgive

theorem retransOrClose_resend
    {env : TsmEnv} {c : Tsm} {limit : BitVec 8} {giveUp resend : Tsm → Tsm}
    (hcnt : c.tcb.retransCnt ≠ limit) :
    retransOrClose env limit giveUp resend c =
      (resend c).onTcb (tsmScheduleRetransmission env.cfg) := by
  rw [retransOrClose, if_neg (by simpa [tcpTooManyRetries] using hcnt)]

/-- The timeout that brings the counter to the limit closes the session. -/
theorem retransTimeout_closes
    {tcb : Tcb} {s : TcpState}
    (env : TsmEnv)
    (hstate : tcb.state = s)
    (hs : Retransmits s)
    (hcnt : tcb.retransCnt + 1 = retryLimit env.cfg s) :
    GivenUp (tsmRetransmissionTimeout env (expired tcb)) := by
  have hcnt' : (expired tcb).tcb.retransCnt = retryLimit env.cfg s := hcnt
  have hstate' : (expired tcb).tcb.state = s := hstate
  have hnotify : ∀ c : Tsm, GivenUp (notifyAndClose c) := fun c => givenUp_enterClosed _
  unfold tsmRetransmissionTimeout
  rcases hs with rfl | rfl | rfl | rfl | rfl | rfl <;> rw [hstate']
  · exact retransOrClose_giveUp hcnt' (hnotify _)
  · exact retransOrClose_giveUp hcnt' (hnotify _)
  · exact retransOrClose_giveUp hcnt' (hnotify _)
  · exact retransOrClose_giveUp hcnt' (givenUp_enterClosed _)
  · exact retransOrClose_giveUp hcnt' (givenUp_enterClosed _)
  · exact retransOrClose_giveUp hcnt' (givenUp_enterClosed _)

/-- A retransmission leaves what is outstanding outstanding. -/
theorem tsmRetransData_holds
    {env : TsmEnv} {c : Tsm}
    (hcfg : ConfigOk env.cfg)
    (hqueue : QueueOk env.cfg.sockopt.tcpoWinSize.toNat c.tcb.retrans)
    (h : HoldsUnacked c.tcb) :
    HoldsUnacked (tsmRetransData env c).tcb := by
  have hw := hcfg.winSize
  rw [tsmRetransData, notifyWinUnavail_tcb]
  by_cases hempty : c.tcb.retrans.dataMbufs = []
  · rw [tcpDataRetrans, if_pos hempty]
    exact h
  · obtain ⟨heq, -⟩ := tcpDataRetrans_spec env hcfg.mtu hqueue (by omega)
    right
    rw [heq]
    intro hnone
    have hlen : (queued c.tcb).length = 0 := by
      rw [show queued c.tcb = [] from hnone, List.length_nil]
    exact hempty (hqueue.eq_nil_iff.2 hlen)

theorem tsmRetransData_keeps
    {env : TsmEnv} {c : Tsm} {winSize : Nat}
    (hmtu : 0 < env.cfg.mtu)
    (hqueue : QueueOk winSize c.tcb.retrans)
    (hwin : winSize < 2 ^ 32) :
    (tsmRetransData env c).tcb.state = c.tcb.state ∧
      (tsmRetransData env c).tcb.inHtable = c.tcb.inHtable ∧
      (tsmRetransData env c).tcb.retransCnt = c.tcb.retransCnt ∧
      (tsmRetransData env c).tcb.retrans = c.tcb.retrans := by
  obtain ⟨heq, -⟩ := tcpDataRetrans_spec env hmtu hqueue hwin
  rw [tsmRetransData, notifyWinUnavail_tcb, heq]
  exact ⟨rfl, rfl, rfl, rfl⟩

/-- The timer is started again, and the counter stays, while something is outstanding. -/
theorem scheduled
    {cfg : TcpConfig} {tcb : Tcb}
    (hcfg : ConfigOk cfg)
    (htimers : TimersInRange cfg)
    (hqueue : QueueOk cfg.sockopt.tcpoWinSize.toNat tcb.retrans)
    (h : HoldsUnacked tcb) :
    (tsmScheduleRetransmission cfg tcb).onRtoList = true ∧
      (tsmScheduleRetransmission cfg tcb).retransCnt = tcb.retransCnt := by
  refine ⟨schedule_arms tcb hcfg htimers hqueue h, ?_⟩
  have hw := hcfg.winSize
  have hnot : ¬ (tcb.snd.una = tcb.snd.nxt ∧ tcb.retrans.totalSize = 0) := by
    rintro ⟨heq, htotal⟩
    rcases h with h | h
    · exact h heq
    · exact h ((hqueue.total_eq_zero (by omega)).1 htotal)
  unfold tsmScheduleRetransmission tcpTimerRtoSet
  rw [if_neg hnot]
  repeat' split
  all_goals rfl

/-- Every other timeout counts, resends, and starts the timer again. -/
theorem retransTimeout_again
    {tcb : Tcb} {s : TcpState} {i : ConnInput}
    (hcfg : ConfigOk cfg)
    (htimers : TimersInRange cfg)
    (hs : Retransmits s)
    (h : Waiting cfg s tcb)
    (harmed : tcb.onRtoList = true)
    (hi : Expiry i)
    (hcnt : tcb.retransCnt + 1 ≠ retryLimit cfg s) :
    Waiting cfg s (tcbStep cfg tcb i) ∧
      (tcbStep cfg tcb i).onRtoList = true ∧
      (tcbStep cfg tcb i).retransCnt = tcb.retransCnt + 1 := by
  have hw := hcfg.winSize
  have hlegal : ConnLegal tcb i := by
    simp only [ConnLegal, show i.event = .rtoTimer from hi]
    exact harmed
  have hinv : SendInv cfg anySlack (tcbStep cfg tcb i) :=
    sendInv_step hcfg h.send hlegal (anySlack_fits tcb i)
  have hqueue := (h.send.bound h.live).queue
  -- what is resent keeps the state, the queue and the counter
  obtain ⟨c, hrun, hc, hlive, hcntc, hretrans, hholds⟩ : ∃ c : Tsm,
      tcbStep cfg tcb i = tsmScheduleRetransmission cfg c.tcb ∧
      c.tcb.state = s ∧ c.tcb.inHtable = true ∧ c.tcb.retransCnt = tcb.retransCnt + 1 ∧
      c.tcb.retrans = tcb.retrans ∧ HoldsUnacked c.tcb := by
    have hcnt' : (expired tcb).tcb.retransCnt ≠ retryLimit cfg s := hcnt
    have hstate' : (expired tcb).tcb.state = s := h.state
    have hctl : ∀ (seq : U32) (flags : TcpFlags),
        ((expired tcb).tcpSendCtrlPktWithSseq seq flags).tcb.state = s ∧
        ((expired tcb).tcpSendCtrlPktWithSseq seq flags).tcb.inHtable = true ∧
        ((expired tcb).tcpSendCtrlPktWithSseq seq flags).tcb.retransCnt = tcb.retransCnt + 1 ∧
        ((expired tcb).tcpSendCtrlPktWithSseq seq flags).tcb.retrans = tcb.retrans ∧
        HoldsUnacked ((expired tcb).tcpSendCtrlPktWithSseq seq flags).tcb :=
      fun _ _ => ⟨h.state, h.live, rfl, rfl, h.holds⟩
    rw [tcbStep, connStep_expiry hi]
    unfold tsmRetransmissionTimeout
    rcases hs with rfl | rfl | rfl | rfl | rfl | rfl <;> rw [hstate']
    · exact ⟨_, congrArg Tsm.tcb (retransOrClose_resend hcnt'), hctl _ _⟩
    · exact ⟨_, congrArg Tsm.tcb (retransOrClose_resend hcnt'), hctl _ _⟩
    · obtain ⟨hst, hlv, hcn, hrt⟩ := @tsmRetransData_keeps (i.env cfg) (expired tcb) _
        hcfg.mtu hqueue (by omega)
      exact ⟨_, congrArg Tsm.tcb (retransOrClose_resend hcnt'), hst.trans h.state,
        hlv.trans h.live, hcn, hrt,
        @tsmRetransData_holds (i.env cfg) (expired tcb) hcfg hqueue h.holds⟩
    · exact ⟨_, congrArg Tsm.tcb (retransOrClose_resend hcnt'), hctl _ _⟩
    · exact ⟨_, congrArg Tsm.tcb (retransOrClose_resend hcnt'), hctl _ _⟩
    · exact ⟨_, congrArg Tsm.tcb (retransOrClose_resend hcnt'), hctl _ _⟩
  obtain ⟨harmed', hkeep⟩ := scheduled hcfg htimers (hretrans ▸ hqueue) hholds
  refine ⟨⟨hinv, ?_, ?_, ?_⟩, ?_, ?_⟩
  · rw [hrun, tsmScheduleRetransmission_eq]
    exact hlive
  · rw [hrun, tsmScheduleRetransmission_eq]
    exact hc
  · rw [hrun, tsmScheduleRetransmission_eq]
    exact hholds
  · rw [hrun]
    exact harmed'
  · rw [hrun, hkeep, hcntc]

end Timeout

section Results

variable {cfg : TcpConfig}

/-- A session after some expiries of its timer: still retrying, and every one was counted. -/
structure Retrying (cfg : TcpConfig) (tcb : Tcb) (n : Nat) (tcb' : Tcb) : Prop where
  live : tcb'.inHtable = true
  state : tcb'.state = tcb.state
  armed : tcb'.onRtoList = true
  counted : tcb'.retransCnt.toNat = tcb.retransCnt.toNat + n
  below : tcb'.retransCnt.toNat ≤ (retryLimit cfg tcb.state).toNat

/--
With a silent peer the session retries at most as often as the limit of its state says, the
counter neither passes the limit nor wraps, and then the session is closed and reported.
-/
def RetriesBounded (cfg : TcpConfig) (tcb : Tcb) : Prop :=
  ∃ k ≤ (retryLimit cfg tcb.state).toNat,
    (∀ is : List ConnInput, (∀ i ∈ is, Expiry i) → is.length ≤ k →
      Retrying cfg tcb is.length (run (tcbStep cfg) tcb is)) ∧
    ∀ is : List ConnInput, (∀ i ∈ is, Expiry i) → is.length = k →
      ∀ i, Expiry i → GivenUp (connStep cfg (run (tcbStep cfg) tcb is) i)

/-- The timeouts of a silent peer, one after the other. -/
theorem expiries_counted
    {tcb : Tcb} {s : TcpState} {is : List ConnInput}
    (hcfg : ConfigOk cfg)
    (htimers : TimersInRange cfg)
    (hs : Retransmits s)
    (h : Waiting cfg s tcb)
    (harmed : tcb.onRtoList = true)
    (his : ∀ i ∈ is, Expiry i)
    (hlimit : tcb.retransCnt.toNat + is.length < (retryLimit cfg s).toNat) :
    Waiting cfg s (run (tcbStep cfg) tcb is) ∧
      (run (tcbStep cfg) tcb is).onRtoList = true ∧
      (run (tcbStep cfg) tcb is).retransCnt.toNat = tcb.retransCnt.toNat + is.length := by
  induction is generalizing tcb with
  | nil =>
      exact ⟨h, harmed, rfl⟩
  | cons i is ih =>
      rw [List.length_cons] at hlimit
      have hsmall := (retryLimit cfg s).isLt
      have hnat : (tcb.retransCnt + 1).toNat = tcb.retransCnt.toNat + 1 := by
        rw [BitVec.toNat_add]
        exact Nat.mod_eq_of_lt (show tcb.retransCnt.toNat + 1 < 2 ^ 8 by omega)
      have hcnt : tcb.retransCnt + 1 ≠ retryLimit cfg s := by
        intro heq
        rw [← heq, hnat] at hlimit
        omega
      obtain ⟨hnext, harmed', hcnt'⟩ :=
        retransTimeout_again hcfg htimers hs h harmed (his i (by simp)) hcnt
      obtain ⟨hlast, harmed'', hcount⟩ := ih hnext harmed'
        (fun j hj => his j (List.mem_cons_of_mem i hj)) (by rw [hcnt', hnat]; omega)
      refine ⟨hlast, harmed'', ?_⟩
      rw [run_cons, hcount, hcnt', hnat, List.length_cons]
      omega

theorem retriesBounded_iff
    {tcb : Tcb} {s : TcpState}
    (hcfg : ConfigOk cfg)
    (htimers : TimersInRange cfg)
    (hs : Retransmits s)
    (h : Waiting cfg s tcb) :
    RetriesBounded cfg tcb ↔
      tcb.onRtoList = true ∧ tcb.retransCnt.toNat < (retryLimit cfg s).toNat := by
  have hstate := h.state
  subst hstate
  constructor
  · rintro ⟨k, -, hretry, hclose⟩
    have harmed := (hretry [] (by simp) (Nat.zero_le k)).armed
    refine ⟨harmed, ?_⟩
    by_contra hnot
    -- a counter at the limit or above it passes the limit with the next timeout
    have hstart := hretry [] (by simp) (Nat.zero_le k)
    have hle := hstart.below
    simp only [run_nil] at hle
    have heq : tcb.retransCnt = retryLimit cfg tcb.state :=
      BitVec.eq_of_toNat_eq (by omega)
    have hcnt : tcb.retransCnt + 1 ≠ retryLimit cfg tcb.state := by
      rw [heq]
      bv_omega
    have hexp : Expiry (ConnInput.plain .rtoTimer) := rfl
    obtain ⟨hnext, -, hcnt'⟩ := retransTimeout_again hcfg htimers hs h harmed hexp hcnt
    cases k with
    | zero =>
        have hdead := (hclose [] (by simp) rfl (.plain .rtoTimer) hexp).dead
        exact absurd (hdead.symm.trans hnext.live) (by decide)
    | succ k =>
        have hone := hretry [.plain .rtoTimer] (by simpa using hexp) (Nat.succ_le_succ k.zero_le)
        have hcounted := hone.counted
        have hbelow := hone.below
        simp only [List.length_cons, List.length_nil] at hcounted
        omega
  · rintro ⟨harmed, hlt⟩
    refine ⟨(retryLimit cfg tcb.state).toNat - tcb.retransCnt.toNat - 1, by omega, ?_, ?_⟩
    · intro is his hlen
      obtain ⟨hw, harmed', hcount⟩ :=
        expiries_counted hcfg htimers hs h harmed his (by omega)
      exact ⟨hw.live, hw.state, harmed', hcount, by omega⟩
    · intro is his hlen i hi
      obtain ⟨hw, -, hcount⟩ := expiries_counted hcfg htimers hs h harmed his (by omega)
      have hsmall := (retryLimit cfg tcb.state).isLt
      rw [connStep_expiry hi]
      refine retransTimeout_closes (i.env cfg) hw.state hs ?_
      apply BitVec.eq_of_toNat_eq
      rw [BitVec.toNat_add, hcount]
      have hone : (1 : BitVec 8).toNat = 1 := rfl
      rw [hone, Nat.mod_eq_of_lt (by omega)]
      change _ = (retryLimit cfg tcb.state).toNat
      omega

/-- Every block that runs reach satisfies the bounds of the queue. -/
theorem sendInv_run
    {is : List ConnInput}
    (hcfg : ConfigOk cfg)
    (hrun : Guarded (tcbStep cfg) ConnLegal blankTcb is) :
    SendInv cfg anySlack (run (tcbStep cfg) blankTcb is) :=
  run_invariant (SendInv cfg anySlack)
    (fun tcb i hinv hlegal => sendInv_step hcfg hinv hlegal (anySlack_fits tcb i))
    blankTcb_sendInv hrun

/--
In every state that retransmits and has something outstanding, however it was reached, the
retries are bounded exactly when the timer runs and the counter is below the limit.
-/
theorem retries_bounded_iff
    (cfg : TcpConfig)
    (hcfg : ConfigOk cfg)
    (htimers : TimersInRange cfg)
    (is : List ConnInput)
    (hrun : Guarded (tcbStep cfg) ConnLegal blankTcb is)
    (hlive : (run (tcbStep cfg) blankTcb is).inHtable = true)
    (hstate : Retransmits (run (tcbStep cfg) blankTcb is).state)
    (hholds : HoldsUnacked (run (tcbStep cfg) blankTcb is)) :
    RetriesBounded cfg (run (tcbStep cfg) blankTcb is) ↔
      (run (tcbStep cfg) blankTcb is).onRtoList = true ∧
        (run (tcbStep cfg) blankTcb is).retransCnt.toNat <
          (retryLimit cfg (run (tcbStep cfg) blankTcb is).state).toNat :=
  retriesBounded_iff hcfg htimers hstate ⟨sendInv_run hcfg hrun, hlive, rfl, hholds⟩

/-- An open connection with four bytes that were sent twice. -/
def dataResent : List ConnInput :=
  [.plain (.open true),
   .plain (.segment (plainPcb 100 1 { syn := true, ack := true } [])),
   .plain (plainSend 7 [1, 2, 3, 4]),
   .plain .rtoTimer]

theorem retries_bounded_iff_dataResent :
    RetriesBounded defaultConfig (run (tcbStep defaultConfig) blankTcb dataResent) ↔
      (run (tcbStep defaultConfig) blankTcb dataResent).onRtoList = true ∧
        (run (tcbStep defaultConfig) blankTcb dataResent).retransCnt.toNat <
          (retryLimit defaultConfig
            (run (tcbStep defaultConfig) blankTcb dataResent).state).toNat :=
  retries_bounded_iff defaultConfig defaultConfig_ok defaultTimers_inRange dataResent
    (by decide) (by decide) (by decide) (Or.inl (by decide))

/-- One retry for a FIN, and the default number for everything else. -/
def oneFinRetry : TcpConfig :=
  { defaultConfig with sockopt := { defaultConfig.sockopt with tcpoRetryCnt := 1 } }

/-- The peer closes while the data is being retransmitted. -/
def closedWhileResending : List ConnInput :=
  dataResent ++ [.plain (.segment (plainPcb 101 1 { fin := true, ack := true } []))]

/-- `TS_LAST_ACK` is entered with the counter at its limit, and retries past it. -/
theorem lastAck_retries_past_limit :
    Guarded (tcbStep oneFinRetry) ConnLegal blankTcb closedWhileResending ∧
    (run (tcbStep oneFinRetry) blankTcb closedWhileResending).state = .lastAck ∧
    HoldsUnacked (run (tcbStep oneFinRetry) blankTcb closedWhileResending) ∧
    ¬ RetriesBounded oneFinRetry (run (tcbStep oneFinRetry) blankTcb closedWhileResending) := by
  have hrun : Guarded (tcbStep oneFinRetry) ConnLegal blankTcb closedWhileResending := by
    decide
  have hcfg : ConfigOk oneFinRetry := ⟨by decide, by decide⟩
  have htimers : TimersInRange oneFinRetry := ⟨by decide, by decide, by decide, by decide⟩
  have hholds : HoldsUnacked (run (tcbStep oneFinRetry) blankTcb closedWhileResending) :=
    Or.inl (by decide)
  refine ⟨hrun, by decide, hholds, fun h => ?_⟩
  have hlt := ((retriesBounded_iff hcfg htimers (by decide)
    ⟨sendInv_run hcfg hrun, by decide, rfl, hholds⟩).1 h).2
  exact absurd hlt (by decide)

end Results

end RetryLimits
end Warp17
