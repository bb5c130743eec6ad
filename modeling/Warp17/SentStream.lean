import Warp17.SendSequence
import Warp17.TransmittedNumbers

/-!
# What a connection has sent

The bytes that the application hands over are a stream, numbered from the one after our SYN,
and the FIN has the number after the stream.  A packet is in place when its data is a part of
the stream under the numbers of that part, and its FIN has the number of the end.

`Streamed` relates all the packets of a history to the stream: everything is in place, all of
the stream goes before the FIN, and before the FIN as many of its last bytes are unsent as
the queue has bytes above what is in flight.  Most transitions use no number (`Numberless`)
and change nothing in it; the others send a part of the stream (`streamed_data`), or the FIN
(`FinOut`).

**Results**
- `segPkts_carried`: adjacent segments carry the part of the stream they are cut from.
- `streamed_data`: sending from `SND.NXT` or from `SND.UNA` keeps what was sent in order.
- `Ready.sendFin`: so does the FIN, when everything before it has been sent.
-/

namespace Warp17
namespace SentStream

open SerialArithmetic SequenceComparison MbufChains ControlBlock SendQueue
open RetransmissionQueue TcpStateMachine TransitionPaths ConnectionRuns
open SendInvariants SendSequence TransmittedNumbers

section Packets

/-- The data of a packet has its own place in the stream, and its FIN the one after the stream. -/
structure InPlace (iss : U32) (accepted : List UInt8) (p : TxPkt) : Prop where
  data : p.data ≠ [] → ∃ s, p.seq = seqAt (iss + 1) s ∧ p.data <+: accepted.drop s
  fin : p.flags.fin = true → p.data = [] ∧ p.seq = seqAt (iss + 1) accepted.length

/-- The byte at position `k` is in one of the packets, under its own number. -/
def Carried (iss : U32) (accepted : List UInt8) (ps : List TxPkt) (k : Nat) : Prop :=
  ∃ p ∈ ps, ∃ s,
    p.seq = seqAt (iss + 1) s ∧ p.data <+: accepted.drop s ∧ s ≤ k ∧ k < s + p.data.length

variable {iss : U32} {accepted : List UInt8} {p : TxPkt} {ps : List TxPkt} {k : Nat}

theorem no_data_of_numberless
    (h : pktNumbers p = 0) :
    p.data = [] ∧ p.flags.fin = false := by
  rw [pktNumbers, Nat.add_eq_zero_iff, List.length_eq_zero_iff] at h
  refine ⟨h.1, ?_⟩
  by_contra hfin
  rw [Bool.not_eq_false] at hfin
  rw [hfin, if_pos rfl] at h
  exact absurd h.2 (by decide)

theorem inPlace_of_numberless
    (h : pktNumbers p = 0) :
    InPlace iss accepted p := by
  obtain ⟨hdata, hfin⟩ := no_data_of_numberless h
  refine ⟨fun hne => absurd hdata hne, fun hyes => ?_⟩
  rw [hfin] at hyes
  cases hyes

theorem drop_prefix_append
    {s : Nat} {bytes : List UInt8}
    (more : List UInt8)
    (hne : bytes ≠ [])
    (h : bytes <+: accepted.drop s) :
    bytes <+: (accepted ++ more).drop s := by
  have hlt : s < accepted.length := by
    by_contra hge
    rw [List.drop_eq_nil_of_le (Nat.le_of_not_lt hge)] at h
    exact hne (List.prefix_nil.1 h)
  rw [List.drop_append_of_le_length hlt.le]
  exact h.trans (List.prefix_append _ _)

/-- Packets without a FIN keep their place when the stream grows. -/
theorem InPlace.append
    (more : List UInt8)
    (h : InPlace iss accepted p)
    (hfin : p.flags.fin = false) :
    InPlace iss (accepted ++ more) p := by
  refine ⟨fun hne => ?_, fun hyes => ?_⟩
  · obtain ⟨s, hseq, hprefix⟩ := h.data hne
    exact ⟨s, hseq, drop_prefix_append more hne hprefix⟩
  · rw [hfin] at hyes
    cases hyes

theorem Carried.append
    (more : List UInt8)
    (h : Carried iss accepted ps k) :
    Carried iss (accepted ++ more) ps k := by
  obtain ⟨p, hp, s, hseq, hprefix, hle, hlt⟩ := h
  refine ⟨p, hp, s, hseq, drop_prefix_append more ?_ hprefix, hle, hlt⟩
  rw [← List.length_pos_iff]
  omega

theorem Carried.mono
    {ps' : List TxPkt}
    (h : Carried iss accepted ps k)
    (hsub : ∀ p ∈ ps, p ∈ ps') :
    Carried iss accepted ps' k := by
  obtain ⟨p, hp, hrest⟩ := h
  exact ⟨p, hsub p hp, hrest⟩

/-- The segments that are cut from the stream from position `s` on. -/
theorem segPkts_inPlace
    {rcv : TcbRcv} {flags : TcpFlags} {s : Nat} {ns : List Nat}
    (hflags : flags.fin = false)
    (hp : p ∈ segPkts rcv flags (seqAt (iss + 1) s) (accepted.drop s) ns) :
    InPlace iss accepted p ∧ p.flags.fin = false := by
  induction ns generalizing s with
  | nil =>
      simp [segPkts] at hp
  | cons n ns ih =>
      rw [segPkts, List.mem_cons] at hp
      rcases hp with rfl | hp
      · refine ⟨⟨fun _ => ⟨s, rfl, List.take_prefix _ _⟩, fun hyes => ?_⟩, hflags⟩
        rw [hflags] at hyes
        cases hyes
      · rw [seqAt_add, List.drop_drop] at hp
        exact ih hp

theorem segPkts_carried
    {s : Nat} {ns : List Nat}
    (rcv : TcbRcv) (flags : TcpFlags)
    (hfits : s + ns.sum ≤ accepted.length)
    (hlow : s ≤ k)
    (hhigh : k < s + ns.sum) :
    Carried iss accepted (segPkts rcv flags (seqAt (iss + 1) s) (accepted.drop s) ns) k := by
  induction ns generalizing s with
  | nil =>
      simp at hhigh
      omega
  | cons n ns ih =>
      rw [List.sum_cons] at hfits hhigh
      rw [segPkts]
      rcases Nat.lt_or_ge k (s + n) with hin | hafter
      · refine ⟨_, List.mem_cons_self, s, rfl, List.take_prefix _ _, hlow, ?_⟩
        simp only [List.length_take, List.length_drop]
        omega
      · rw [seqAt_add, List.drop_drop]
        exact (ih (by omega) hafter (by omega)).mono fun p hp => List.mem_cons_of_mem _ hp

end Packets

section Numbers

/-- `SND.NXT` is above `SND.UNA` by what is in flight. -/
theorem una_add_flight
    (tcb : Tcb) :
    tcb.snd.una + BitVec.ofNat 32 (flight tcb) = tcb.snd.nxt := by
  rw [flight, BitVec.ofNat_toNat, BitVec.setWidth_eq]
  abel

/-- The number after the queue is the number after everything that was accepted. -/
theorem Positioned.end_eq
    {accepted : List UInt8} {tcb : Tcb}
    (hp : Positioned accepted tcb) :
    tcb.snd.una + BitVec.ofNat 32 (queued tcb).length =
      seqAt (tcb.snd.iss + 1) accepted.length := by
  obtain ⟨d, hd, hqueue, huna⟩ := hp
  rw [huna, hqueue, seqAt_add, List.length_drop, Nat.add_sub_cancel' hd]

end Numbers

section Transitions

/--
What a control block has sent: everything is in place, all data goes before the FIN, and
before the FIN all but the unsent end of the queue was sent.
-/
structure Streamed (h : History) : Prop where
  placed : ∀ p ∈ h.sent, InPlace h.tcb.snd.iss h.accepted p
  complete :
    (∃ p ∈ h.sent, p.flags.fin = true) →
      ∀ k < h.accepted.length, Carried h.tcb.snd.iss h.accepted h.sent k
  noFin :
    h.tcb.inHtable = true → ¬ AfterFin h.tcb.state → ∀ p ∈ h.sent, p.flags.fin = false
  estab :
    h.tcb.inHtable = true → h.tcb.state = .established →
      ∀ k, k + (queued h.tcb).length < h.accepted.length + flight h.tcb →
        Carried h.tcb.snd.iss h.accepted h.sent k
  closing :
    h.tcb.inHtable = true → AfterFin h.tcb.state →
      h.tcb.snd.nxt = seqAt (h.tcb.snd.iss + 1) h.accepted.length + 1 ∧
        ∀ k < h.accepted.length, Carried h.tcb.snd.iss h.accepted h.sent k

/-- The history in the middle of a transition that takes no data. -/
def after (h : History) (c : Tsm) : History :=
  { tcb := c.tcb, accepted := h.accepted, sent := h.sent ++ packets c.out }

/-- A FIN of this step is still to be acknowledged after it. -/
def FinBusy (c : Tsm) : Prop :=
  ∀ p ∈ packets c.out, p.flags.fin = true →
    c.tcb.inHtable = true ∧ AfterFin c.tcb.state ∧ c.tcb.snd.una ≠ c.tcb.snd.nxt

/-- The transition is in order so far. -/
structure Mid (h : History) (c : Tsm) : Prop where
  streamed : Streamed (after h c)
  busy : FinBusy c

/-- A part of a transition that uses no sequence number. -/
structure Numberless (h : History) (c : Tsm) : Prop where
  iss : c.tcb.snd.iss = h.tcb.snd.iss
  nxt : c.tcb.snd.nxt = h.tcb.snd.nxt
  out : ∀ p ∈ packets c.out, pktNumbers p = 0

variable {cfg : TcpConfig} {h : History} {c c' : Tsm}

theorem numberless_start
    (h : History) :
    Numberless h (Tsm.start h.tcb) :=
  ⟨rfl, rfl, by simp [Tsm.start]⟩

theorem Numberless.silent
    (hn : Numberless h c)
    (hs : Silent c c')
    (hiss : c'.tcb.snd.iss = c.tcb.snd.iss) :
    Numberless h c' := by
  obtain ⟨ps, hps, hzero⟩ := hs.out
  refine ⟨hiss.trans hn.iss, hs.nxt.trans hn.nxt, fun p hp => ?_⟩
  rw [hps] at hp
  rcases List.mem_append.1 hp with hp | hp
  · exact hn.out p hp
  · exact hzero p hp

theorem Numberless.quiet
    (hn : Numberless h c)
    (hq : Quiet c c') :
    Numberless h c' :=
  hn.silent (silent_of_quiet hq) (by rw [hq.same.snd])

/-- The packets of such a part change nothing in what was sent. -/
theorem Numberless.mid
    (hn : Numberless h c)
    (hs : Streamed h)
    (hnoFin :
      c.tcb.inHtable = true → ¬ AfterFin c.tcb.state → ∀ p ∈ h.sent, p.flags.fin = false)
    (hestab :
      c.tcb.inHtable = true → c.tcb.state = .established →
        ∀ k, k + (queued c.tcb).length < h.accepted.length + flight c.tcb →
          Carried h.tcb.snd.iss h.accepted h.sent k)
    (hclosing :
      c.tcb.inHtable = true → AfterFin c.tcb.state →
        h.tcb.snd.nxt = seqAt (h.tcb.snd.iss + 1) h.accepted.length + 1 ∧
          ∀ k < h.accepted.length, Carried h.tcb.snd.iss h.accepted h.sent k) :
    Mid h c := by
  have hplain : ∀ p ∈ packets c.out, p.flags.fin = false :=
    fun p hp => (no_data_of_numberless (hn.out p hp)).2
  have hmore : ∀ p ∈ h.sent, p ∈ (after h c).sent :=
    fun p hp => List.mem_append_left _ hp
  refine ⟨⟨?_, ?_, ?_, ?_, ?_⟩, fun p hp hfin => ?_⟩
  · intro p hp
    simp only [after, hn.iss] at hp ⊢
    rcases List.mem_append.1 hp with hp | hp
    · exact hs.placed p hp
    · exact inPlace_of_numberless (hn.out p hp)
  · rintro ⟨p, hp, hfin⟩ k hk
    simp only [after, hn.iss] at hp hk ⊢
    rcases List.mem_append.1 hp with hp | hp
    · exact (hs.complete ⟨p, hp, hfin⟩ k hk).mono hmore
    · rw [hplain p hp] at hfin
      cases hfin
  · intro hlive hstate p hp
    simp only [after] at hlive hstate hp
    rcases List.mem_append.1 hp with hp | hp
    · exact hnoFin hlive hstate p hp
    · exact hplain p hp
  · intro hlive hstate k hk
    simp only [after, hn.iss] at hlive hstate hk ⊢
    exact (hestab hlive hstate k hk).mono hmore
  · intro hlive hstate
    simp only [after, hn.iss, hn.nxt] at hlive hstate ⊢
    obtain ⟨hnxt, hall⟩ := hclosing hlive hstate
    exact ⟨hnxt, fun k hk => (hall k hk).mono hmore⟩
  · rw [hplain p hp] at hfin
    cases hfin

/-- A control block that is closed has nothing more to send. -/
theorem Numberless.mid_dead
    (hn : Numberless h c)
    (hs : Streamed h)
    (hdead : c.tcb.inHtable = false) :
    Mid h c := by
  refine hn.mid hs ?_ ?_ ?_ <;> (intro hlive; rw [hdead] at hlive; cases hlive)

theorem Numberless.mid_afterFin
    {s : TcpState}
    (hn : Numberless h c)
    (hs : Streamed h)
    (hlive : h.tcb.inHtable = true)
    (hbefore : AfterFin h.tcb.state)
    (hstate : c.tcb.state = s)
    (hafter : AfterFin s) :
    Mid h c := by
  rw [← hstate] at hafter
  refine hn.mid hs ?_ ?_ ?_
  · exact fun _ hnot => absurd hafter hnot
  · intro _ hestab
    rw [hestab] at hafter
    exact absurd hafter (by decide)
  · exact fun _ _ => hs.closing hlive hbefore

/-- Before the FIN, as much is unsent as before, or nothing was accepted. -/
theorem Numberless.mid_open
    {s : TcpState}
    (hn : Numberless h c)
    (hs : Streamed h)
    (hlive : h.tcb.inHtable = true)
    (hbefore : ¬ AfterFin h.tcb.state)
    (hstate : c.tcb.state = s)
    (hopen : ¬ AfterFin s)
    (hestab :
      s = .established →
        ∀ k, k + (queued c.tcb).length < h.accepted.length + flight c.tcb →
          Carried h.tcb.snd.iss h.accepted h.sent k) :
    Mid h c := by
  subst hstate
  refine hn.mid hs ?_ ?_ ?_
  · exact fun _ _ => hs.noFin hlive hbefore
  · exact fun _ => hestab
  · exact fun _ hafter => absurd hafter hopen

/-- A quiet transition keeps what was sent. -/
theorem mid_quiet
    (hs : Streamed h)
    (hq : Quiet (Tsm.start h.tcb) c) :
    Mid h c := by
  have hsame := hq.same
  have hstart : (Tsm.start h.tcb).tcb = h.tcb := rfl
  rw [hstart] at hsame
  refine ((numberless_start h).quiet hq).mid hs ?_ ?_ ?_
  · rw [hsame.inHtable, hsame.state]
    exact hs.noFin
  · rw [hsame.inHtable, hsame.state, queued, flight, hsame.snd, hsame.retrans]
    exact hs.estab
  · rw [hsame.inHtable, hsame.state]
    exact hs.closing

theorem tcpSilentClose_iss
    (c : Tsm) :
    (tcpSilentClose c).tcb.snd.iss = c.tcb.snd.iss := by
  unfold tcpSilentClose
  simp only
  split <;> rfl

theorem Numberless.enterClosed
    (hn : Numberless h c) :
    Numberless h (enterClosed c) :=
  hn.silent (silent_enterClosed c) (tcpSilentClose_iss _)

theorem Numberless.mid_closed
    (hn : Numberless h c)
    (hs : Streamed h) :
    Mid h (TcpStateMachine.enterClosed c) :=
  hn.enterClosed.mid_dead hs (tcpSilentClose_dead _).1

theorem Numberless.mid_notifyAndClose
    (hn : Numberless h c)
    (hs : Streamed h) :
    Mid h (notifyAndClose c) :=
  (hn.silent (silent_notif c .sessClosing) rfl).mid_closed hs

/-- Everything that was accepted has been sent, and `SND.NXT` is the number of the FIN. -/
structure Ready (h : History) (c : Tsm) : Prop where
  numberless : Numberless h c
  live : c.tcb.inHtable = true
  nxt : h.tcb.snd.nxt = seqAt (h.tcb.snd.iss + 1) h.accepted.length
  small : flight c.tcb + 1 < 2 ^ 32
  all : ∀ k < h.accepted.length, Carried h.tcb.snd.iss h.accepted h.sent k

/-- The FIN was sent in this transition, and nothing else that has a number. -/
structure FinOut (h : History) (c : Tsm) : Prop where
  iss : c.tcb.snd.iss = h.tcb.snd.iss
  live : c.tcb.inHtable = true
  state : AfterFin c.tcb.state
  nxt : c.tcb.snd.nxt = seqAt (h.tcb.snd.iss + 1) h.accepted.length + 1
  busy : c.tcb.snd.una ≠ c.tcb.snd.nxt
  out :
    ∀ p ∈ packets c.out,
      pktNumbers p = 0 ∨
        p.data = [] ∧ p.seq = seqAt (h.tcb.snd.iss + 1) h.accepted.length
  all : ∀ k < h.accepted.length, Carried h.tcb.snd.iss h.accepted h.sent k

theorem FinOut.mid
    (hf : FinOut h c)
    (hs : Streamed h) :
    Mid h c := by
  have hall : ∀ k < h.accepted.length,
      Carried h.tcb.snd.iss h.accepted (after h c).sent k :=
    fun k hk => (hf.all k hk).mono fun p hp => List.mem_append_left _ hp
  refine ⟨⟨?_, ?_, ?_, ?_, ?_⟩, fun p hp hfin => ?_⟩
  · intro p hp
    simp only [after, hf.iss] at hp ⊢
    rcases List.mem_append.1 hp with hp | hp
    · exact hs.placed p hp
    · rcases hf.out p hp with hzero | ⟨hdata, hseq⟩
      · exact inPlace_of_numberless hzero
      · exact ⟨fun hne => absurd hdata hne, fun _ => ⟨hdata, hseq⟩⟩
  · rintro - k hk
    change Carried c.tcb.snd.iss h.accepted _ k
    rw [hf.iss]
    exact hall k hk
  · exact fun _ hnot => absurd hf.state hnot
  · intro _ hestab
    have hstate : AfterFin (after h c).tcb.state := hf.state
    rw [hestab] at hstate
    exact absurd hstate (by decide)
  · rintro - -
    simp only [after, hf.iss, hf.nxt, true_and]
    exact hall
  · exact ⟨hf.live, hf.state, hf.busy⟩

/-- What is sent after the FIN has no number. -/
theorem FinOut.silent
    (hf : FinOut h c)
    (hs : Silent c c')
    (hiss : c'.tcb.snd.iss = c.tcb.snd.iss)
    (hlive : c'.tcb.inHtable = c.tcb.inHtable)
    (hstate : AfterFin c'.tcb.state) :
    FinOut h c' := by
  obtain ⟨ps, hps, hzero⟩ := hs.out
  refine ⟨hiss.trans hf.iss, hlive.trans hf.live, hstate, hs.nxt.trans hf.nxt, ?_, ?_, hf.all⟩
  · rw [hs.una, hs.nxt]
    exact hf.busy
  · intro p hp
    rw [hps] at hp
    rcases List.mem_append.1 hp with hp | hp
    · exact hf.out p hp
    · exact Or.inl (hzero p hp)

theorem FinOut.quiet
    (hf : FinOut h c)
    (hq : Quiet c c') :
    FinOut h c' := by
  have hstate := hf.state
  rw [← hq.same.state] at hstate
  exact hf.silent (silent_of_quiet hq) (by rw [hq.same.snd]) hq.same.inHtable hstate

theorem Ready.silent
    (hr : Ready h c)
    (hs : Silent c c')
    (hiss : c'.tcb.snd.iss = c.tcb.snd.iss)
    (hlive : c'.tcb.inHtable = c.tcb.inHtable) :
    Ready h c' := by
  refine ⟨hr.numberless.silent hs hiss, hlive.trans hr.live, hr.nxt, ?_, hr.all⟩
  rw [flight, hs.una, hs.nxt]
  exact hr.small

/-- The FIN goes out with the number after the last byte. -/
theorem Ready.sendFin
    (hr : Ready h c)
    (hs : Silent (sendFin c) c')
    (hiss : c'.tcb.snd.iss = c.tcb.snd.iss)
    (hlive : c'.tcb.inHtable = c.tcb.inHtable)
    (hstate : AfterFin c'.tcb.state) :
    FinOut h c' := by
  have hseq : c.tcb.snd.nxt = seqAt (h.tcb.snd.iss + 1) h.accepted.length :=
    hr.numberless.nxt.trans hr.nxt
  have hflight : flight (TcpStateMachine.sendFin c).tcb = flight c.tcb + 1 :=
    flight_succ rfl rfl hr.small
  obtain ⟨ps, hps, hzero⟩ := hs.out
  refine ⟨hiss.trans hr.numberless.iss, hlive.trans hr.live, hstate, ?_, ?_, ?_, hr.all⟩
  · rw [hs.nxt, ← hseq]
    rfl
  · rw [hs.una, hs.nxt]
    intro heq
    have hzero := flight_eq_zero.2 heq
    omega
  · intro p hp
    have hmem : p ∈ packets c.out ∨
        p = { seq := c.tcb.snd.nxt, ack := c.tcb.rcv.nxt,
              flags := { fin := true, ack := true },
              wnd := c.tcb.rcv.wnd.truncate 16, data := [] } ∨ p ∈ ps := by
      rw [hps] at hp
      simpa [TcpStateMachine.sendFin, Tsm.tcpSendCtrlPkt, Tsm.tcpSendCtrlPktWithSseq,
        packets] using hp
    rcases hmem with hmem | rfl | hmem
    · exact Or.inl (hr.numberless.out p hmem)
    · exact Or.inr ⟨rfl, hseq⟩
    · exact Or.inl (hzero p hmem)

theorem Ready.enterFinWaitI
    (cfg : TcpConfig)
    (hr : Ready h c) :
    FinOut h (enterFinWaitI cfg (c.tcpNotif .sessClosing)) := by
  have hset : Ready h (setState .finWaitI (c.tcpNotif .sessClosing)) :=
    hr.silent ((silent_notif c .sessClosing).trans (silent_setState .finWaitI _)) rfl rfl
  refine hset.sendFin ((silent_schedule cfg _).trans (silent_slowSet cfg _ _)) ?_ ?_ ?_
  · exact (sameQueue_enterFinWaitI cfg (c.tcpNotif .sessClosing)).iss
  · rw [TcpStateMachine.enterFinWaitI, onTcb_tcb, Function.comp_apply, tcpTimerSlowSet_eq,
      tsmScheduleRetransmission_eq]
    rfl
  · have hstate := enterFinWaitI_state cfg (c.tcpNotif .sessClosing)
    exact Or.inl hstate

theorem Ready.enterCloseWait
    (cfg : TcpConfig)
    (hr : Ready h c) :
    FinOut h (enterCloseWait cfg (c.tcpNotif .sessClosing)) := by
  have hset : Ready h (setState .closeWait (c.tcpNotif .sessClosing)) :=
    hr.silent ((silent_notif c .sessClosing).trans (silent_setState .closeWait _)) rfl rfl
  refine hset.sendFin ((silent_setState .lastAck _).trans (silent_schedule cfg _)) ?_ ?_ ?_
  · exact (sameQueue_enterCloseWait cfg (c.tcpNotif .sessClosing)).iss
  · rw [TcpStateMachine.enterCloseWait, enterLastAck, onTcb_tcb, tsmScheduleRetransmission_eq]
    rfl
  · have hstate := enterCloseWait_state cfg (c.tcpNotif .sessClosing)
    exact Or.inr (Or.inr (Or.inl hstate))

theorem numberless_ackArrived
    (pcb : Pcb) (finSent : Bool)
    (hcfg : ConfigOk cfg)
    (hqueue : QueueOk cfg.sockopt.tcpoWinSize.toNat h.tcb.retrans) :
    Numberless h (ackArrived pcb finSent (Tsm.start h.tcb)) := by
  rcases @ackArrived_spec cfg (Tsm.start h.tcb) pcb finSent hcfg hqueue with
    heq | ⟨segAck, hacc⟩
  · rw [heq]
    exact numberless_start h
  · refine ⟨?_, ackArrived_nxt pcb finSent _, fun p hp => ?_⟩
    · rw [hacc.clean.cleaned.snd]
      rfl
    · rw [hacc.clean.out, packets_append] at hp
      split at hp <;> simp [packets, Tsm.start] at hp

theorem numberless_acked
    (pcb : Pcb) (finSent : Bool)
    (hcfg : ConfigOk cfg)
    (hqueue : QueueOk cfg.sockopt.tcpoWinSize.toNat h.tcb.retrans) :
    Numberless h (acked pcb finSent (Tsm.start h.tcb)) := by
  refine (numberless_ackArrived pcb finSent hcfg hqueue).silent (silent_onTcb ?_ ?_) ?_
  · exact (sameQueue_updateSndWnd pcb _).una
  · unfold updateSndWnd
    split <;> rfl
  · exact (sameQueue_updateSndWnd pcb _).iss

theorem Numberless.incUna
    (hn : Numberless h c) :
    Numberless h (incUna c) :=
  ⟨hn.iss, hn.nxt, hn.out⟩

/-- Data that is sent in `TS_ESTABLISHED`, from position `s` of the stream on. -/
theorem streamed_data
    {h' : History} {flags : TcpFlags}
    (more : List UInt8) (rcv : TcbRcv) (s : Nat) (ns : List Nat)
    (hs : Streamed h)
    (hlive : h.tcb.inHtable = true)
    (hstate : h.tcb.state = .established)
    (hiss : h'.tcb.snd.iss = h.tcb.snd.iss)
    (hstate' : h'.tcb.state = .established)
    (haccepted : h'.accepted = h.accepted ++ more)
    (hflags : flags.fin = false)
    (hsent :
      h'.sent = h.sent ++
        segPkts rcv flags (seqAt (h.tcb.snd.iss + 1) s) (h'.accepted.drop s) ns)
    (hfits : ns ≠ [] → s + ns.sum ≤ h'.accepted.length)
    (hcount :
      ∀ k, k + (queued h'.tcb).length < h'.accepted.length + flight h'.tcb →
        k + (queued h.tcb).length < h.accepted.length + flight h.tcb ∨
          s ≤ k ∧ k < s + ns.sum) :
    Streamed h' := by
  have hbefore : ¬ AfterFin h.tcb.state := by
    rw [hstate]
    decide
  have hnone : ∀ p ∈ h'.sent, p.flags.fin = false := by
    intro p hp
    rw [hsent] at hp
    rcases List.mem_append.1 hp with hp | hp
    · exact hs.noFin hlive hbefore p hp
    · exact (segPkts_inPlace hflags hp).2
  refine ⟨?_, ?_, fun _ _ => hnone, ?_, ?_⟩
  · intro p hp
    rw [hiss]
    rw [hsent] at hp
    rcases List.mem_append.1 hp with hp | hp
    · rw [haccepted]
      exact (hs.placed p hp).append more (hs.noFin hlive hbefore p hp)
    · exact (segPkts_inPlace hflags hp).1
  · rintro ⟨p, hp, hfin⟩
    rw [hnone p hp] at hfin
    cases hfin
  · intro _ _ k hk
    rw [hiss, hsent]
    rcases hcount k hk with hold | ⟨hlow, hhigh⟩
    · rw [haccepted]
      exact ((hs.estab hlive hstate k hold).append more).mono
        fun p hp => List.mem_append_left _ hp
    · have hne : ns ≠ [] := by
        rintro rfl
        simp at hhigh
        omega
      exact (segPkts_carried rcv flags (hfits hne) hlow hhigh).mono
        fun p hp => List.mem_append_right _ hp
  · intro _ hafter
    rw [hstate'] at hafter
    exact absurd hafter (by decide)

/-- The timers and the notifications are not part of what was sent. -/
theorem Streamed.congr
    {h' : History}
    (hs : Streamed h)
    (hsnd : h'.tcb.snd = h.tcb.snd)
    (hretrans : h'.tcb.retrans = h.tcb.retrans)
    (hstate : h'.tcb.state = h.tcb.state)
    (hhtable : h'.tcb.inHtable = h.tcb.inHtable)
    (haccepted : h'.accepted = h.accepted)
    (hsent : h'.sent = h.sent) :
    Streamed h' := by
  refine ⟨?_, ?_, ?_, ?_, ?_⟩
  · rw [hsent, hsnd, haccepted]
    exact hs.placed
  · rw [hsent, hsnd, haccepted]
    exact hs.complete
  · rw [hsent, hhtable, hstate]
    exact hs.noFin
  · rw [hsent, hhtable, hstate, hsnd, haccepted, queued, flight, hretrans, hsnd]
    exact hs.estab
  · rw [hsent, hhtable, hstate, hsnd, haccepted]
    exact hs.closing

/-- A step of the transition that changes timers only. -/
theorem Mid.timers
    (hm : Mid h c)
    (hsnd : c'.tcb.snd = c.tcb.snd)
    (hretrans : c'.tcb.retrans = c.tcb.retrans)
    (hstate : c'.tcb.state = c.tcb.state)
    (hhtable : c'.tcb.inHtable = c.tcb.inHtable)
    (hout : packets c'.out = packets c.out) :
    Mid h c' := by
  refine ⟨hm.streamed.congr hsnd hretrans hstate hhtable rfl ?_, ?_⟩
  · simp only [after, hout]
  · rw [FinBusy, hout, hhtable, hstate, hsnd]
    exact hm.busy

theorem Mid.schedule
    (hm : Mid h c) :
    Mid h (c.onTcb (tsmScheduleRetransmission cfg)) := by
  refine hm.timers ?_ ?_ ?_ ?_ rfl <;> rw [onTcb_tcb, tsmScheduleRetransmission_eq]

theorem packets_notifyWinUnavail
    (full : Bool) (c : Tsm) :
    packets (notifyWinUnavail full c).out = packets c.out := by
  unfold notifyWinUnavail
  split
  · simp [Tsm.tcpNotif, Tsm.emit, packets]
  · rfl

/-- A control block that was just opened has sent a SYN at most. -/
theorem streamed_opened
    (hout : ∀ p ∈ packets c.out, pktNumbers p = 0)
    (hstate : ¬ AfterFin c.tcb.state)
    (hestab : c.tcb.state ≠ .established) :
    Streamed { tcb := c.tcb, accepted := [], sent := packets c.out } := by
  have hnone : ∀ p ∈ packets c.out, p.flags.fin = false :=
    fun p hp => (no_data_of_numberless (hout p hp)).2
  refine ⟨?_, ?_, fun _ _ => hnone, ?_, ?_⟩
  · exact fun p hp => inPlace_of_numberless (hout p hp)
  · rintro - k hk
    simp at hk
  · exact fun _ hyes => absurd hyes hestab
  · exact fun _ hyes => absurd hyes hstate

theorem opened_packets
    (env : TsmEnv) (active : Bool) (tcb : Tcb) :
    ∀ p ∈ packets (tcpOpenV4Connection env active (Tsm.start tcb)).out, pktNumbers p = 0 := by
  cases active with
  | false =>
      intro p hp
      have hnone : packets (tcpOpenV4Connection env false (Tsm.start tcb)).out = [] := rfl
      rw [hnone] at hp
      cases hp
  | true =>
      intro p hp
      have hsyn : packets (tcpOpenV4Connection env true (Tsm.start tcb)).out =
          [{ seq := 0, ack := 0, flags := { syn := true },
             wnd := env.cfg.sockopt.tcpoWinSize.truncate 16, data := [] }] := rfl
      rw [hsyn, List.mem_singleton] at hp
      rw [hp]
      rfl

theorem accepted_packets
    (env : TsmEnv) (syn : Pcb) :
    ∀ p ∈ packets (listenClone env syn (listenerTcb env)).out, pktNumbers p = 0 := by
  intro p hp
  have hsyn : packets (listenClone env syn (listenerTcb env)).out =
      [{ seq := 0, ack := syn.sentSeq + 1, flags := { syn := true, ack := true },
         wnd := env.cfg.sockopt.tcpoWinSize.truncate 16, data := [] }] := rfl
  rw [hsyn, List.mem_singleton] at hp
  rw [hp]
  rfl

end Transitions

end SentStream
end Warp17
