import Warp17.StreamReading
import Warp17.SegmentFrames

/-!
# Transfer of two byte streams

Two control blocks are connected by a network that may lose, duplicate, delay and reorder what
they send.  A step of the network is one input of one of them: a user call, a timeout, or a
segment that carries some packet the other one has sent so far.

The steps considered (`NetOk`) are those that do not reach one of the defects of the sending
half (`KeepsFin`) or of the receiving half (`Timely`), and each block is opened once: every
connection starts with the sequence number `0`, so packets of an earlier one would be taken for
packets of this one.

**Results**
- `carries_received`: a packet is carried by what is received of a frame that was built for it.
- `netInv_step`: a step keeps both blocks in order.
- `consumed_prefix`: what one application has consumed, the other one has handed over first.
- `closed_complete`: a connection whose FIN was taken has delivered the whole stream.
-/

namespace Warp17
namespace StreamTransfer

open ArpTable (U64)
open GuardedRuns SerialArithmetic SequenceComparison MbufChains ControlBlock SendQueue
open TcpStateMachine TransitionPaths ConnectionRuns ReceiveReassembly SendInvariants
open SendSequence SessionTimers SentStream FinAfterData ReceivePaths StreamReading SegmentFrames

/-- One end of a connection: its control block, and what its application has consumed. -/
structure End where
  hist : History
  consumed : List UInt8

/-- An end that was never opened. -/
def End.blank : End :=
  { hist := .blank, consumed := [] }

/-- One input of an end. -/
def endStep (cfg : TcpConfig) (e : End) (i : ConnInput) : End :=
  { hist := historyStep cfg e.hist i
    consumed :=
      (if opens i.event then [] else e.consumed) ++ consumedIn (connStep cfg e.hist.tcb i).out }

inductive Side
  | client
  | server
deriving DecidableEq

def Side.peer : Side → Side
  | .client => .server
  | .server => .client

/-- The two ends. -/
abbrev Net := Side → End

/-- Two ends that were never opened. -/
def Net.blank : Net :=
  fun _ => .blank

/-- One input of one of the ends. -/
def netStep (cfg : Side → TcpConfig) (s : Net) (e : Side × ConnInput) : Net :=
  Function.update s e.1 (endStep (cfg e.1) (s e.1) e.2)

/-- The segment is the packet. -/
structure Carries (pcb : Pcb) (p : TxPkt) : Prop where
  flags : pcb.flags = p.flags
  seq : pcb.sentSeq = p.seq
  ack : pcb.recvAck = p.ack
  wnd : pcb.rxWin = p.wnd
  len : pcb.l5Len = BitVec.ofNat 32 p.data.length
  bytes : chainBytes pcb.mbuf = p.data
  chain : p.data ≠ [] → ChainOk pcb.mbuf
  size : p.data.length < 2 ^ 16

instance (pcb : Pcb) (p : TxPkt) : Decidable (Carries pcb p) :=
  decidable_of_iff
    (pcb.flags = p.flags ∧ pcb.sentSeq = p.seq ∧ pcb.recvAck = p.ack ∧ pcb.rxWin = p.wnd ∧
      pcb.l5Len = BitVec.ofNat 32 p.data.length ∧ chainBytes pcb.mbuf = p.data ∧
        (p.data ≠ [] → ChainOk pcb.mbuf) ∧ p.data.length < 2 ^ 16)
    ⟨fun h => ⟨h.1, h.2.1, h.2.2.1, h.2.2.2.1, h.2.2.2.2.1, h.2.2.2.2.2.1, h.2.2.2.2.2.2.1,
        h.2.2.2.2.2.2.2⟩,
      fun h => ⟨h.flags, h.seq, h.ack, h.wnd, h.len, h.bytes, h.chain, h.size⟩⟩

/-- A step that can happen, and that does not reach one of the defects. -/
structure NetOk (cfg : Side → TcpConfig) (s : Net) (e : Side × ConnInput) : Prop where
  legal : ConnLegal (s e.1).hist.tcb e.2
  keeps : KeepsFin (cfg e.1) (s e.1).hist.tcb e.2
  once : opens e.2.event = true → s e.1 = .blank
  /-- what arrives was sent by the peer -/
  carries :
    ∀ pcb, e.2.event = .segment pcb ∨ e.2.event = .accept pcb →
      ∃ p ∈ (s e.1.peer).hist.sent, Carries pcb p
  timely :
    ∀ pcb, e.2.event = .segment pcb →
      Timely (s e.1.peer).hist.accepted (s e.1).consumed (s e.1).hist.tcb pcb e.2.answer

section Frames

/-- What is received of a frame carries the packet that the frame was built for. -/
theorem carries_received
    {cb : L4Cb} {p : TxPkt} {tstamp : U64} {r : Received}
    (h : ReceivedAs cb (.tcp p) tstamp r)
    (hsize : p.data.length < 2 ^ 16) :
    Carries r.pcb p := by
  obtain ⟨hflags, hseq, hack, hwnd, -⟩ := h.tcp p rfl
  refine ⟨hflags, hseq, hack, hwnd, ?_, h.data, h.chain, hsize⟩
  refine BitVec.eq_of_toNat_eq ?_
  have hlen : r.passed.pcbL5Len.toNat = p.data.length := h.l5Len
  simp only [Received.pcb]
  rw [L4Checksum.zeroExtend_toNat, hlen, BitVec.toNat_ofNat, Nat.mod_eq_of_lt (by omega)]

end Frames

section Ends

/-- The invariant of one end. -/
structure EndInv (cfg : TcpConfig) (peer : History) (e : End) : Prop where
  sending : FinInv cfg e.hist
  iss : e.hist.tcb.snd.iss = 0
  syn : ∀ p ∈ e.hist.sent, SynFirst 0 p
  acks : ∀ p ∈ e.hist.sent, AckOf peer e.consumed p.ack
  recv : RecvOk peer e.hist.tcb e.consumed

variable {cfg : TcpConfig} {peer : History} {h : History} {e : End} {i : ConnInput}

theorem not_finSent_blank :
    ¬ FinSent .blank := by
  rintro ⟨p, hp, -⟩
  cases hp

/-- A step makes the stream longer, but not after the FIN was sent. -/
theorem history_grows
    (hinv : FinInv cfg h)
    (hlegal : ConnLegal h.tcb i)
    (honce : opens i.event = true → h = .blank) :
    h.accepted <+: (historyStep cfg h i).accepted ∧
      (FinSent h →
        FinSent (historyStep cfg h i) ∧ (historyStep cfg h i).accepted = h.accepted) := by
  cases hopens : opens i.event with
  | true =>
      rw [honce hopens]
      exact ⟨List.nil_prefix, fun hsent => absurd hsent not_finSent_blank⟩
  | false =>
      simp only [historyStep, hopens, Bool.false_eq_true, if_false]
      refine ⟨List.prefix_append _ _, fun hsent => ⟨?_, ?_⟩⟩
      · obtain ⟨p, hp, hfin⟩ := hsent
        exact ⟨p, List.mem_append_left _ hp, hfin⟩
      · obtain ⟨p, hp, hfin⟩ := hsent
        rw [List.append_right_eq_self]
        unfold ConnLegal at hlegal
        cases hevent : i.event with
        | send data =>
            simp only [hevent] at hlegal
            have hafter : AfterFin h.tcb.state := by
              by_contra hbefore
              rw [hinv.streamed.noFin hlegal.1 hbefore p hp] at hfin
              cases hfin
            have hrefused : tsmSend (i.env cfg) (Tsm.start h.tcb) data =
                (Tsm.start h.tcb).fail .enotconn := by
              rcases hafter with hs | hs | hs | hs | hs <;> simp only [tsmSend, Tsm.start, hs]
            simp only [takenBytes, connStep, hevent, hrefused]
            rfl
        | «open» active | accept syn | close | segment pcb | rtoTimer | slowTimer | purge =>
            rfl

/-- What carries a packet of the peer is a segment of the peer. -/
theorem Carries.fromPeer
    {pcb : Pcb} {p : TxPkt}
    (hc : Carries pcb p)
    (hinv : FinInv cfg peer)
    (hiss : peer.tcb.snd.iss = 0)
    (hsyn : ∀ p ∈ peer.sent, SynFirst 0 p)
    (hp : p ∈ peer.sent) :
    FromPeer peer pcb := by
  have hplaced := hinv.streamed.placed p hp
  rw [hiss] at hplaced
  have hnone : p.data = [] → pcb.l5Len = 0 := by
    intro hdata
    rw [hc.len, hdata]
    rfl
  refine ⟨fun hlen => ?_, fun hflag => ?_, fun hflag => ?_⟩
  · have hsome : p.data ≠ [] := fun hdata => hlen (hnone hdata)
    obtain ⟨s, hseq, hpre⟩ := hplaced.data hsome
    refine ⟨hc.chain hsome, hc.bytes.symm ▸ hc.len, hc.bytes.symm ▸ hc.size, s,
      hc.seq.trans hseq, hc.bytes.symm ▸ hpre⟩
  · rw [hc.flags] at hflag
    obtain ⟨hseq, hdata⟩ := hsyn p hp hflag
    exact ⟨hc.seq.trans hseq, hnone hdata⟩
  · rw [hc.flags] at hflag
    obtain ⟨hdata, hseq⟩ := hplaced.fin hflag
    exact ⟨⟨p, hp, hflag⟩, hc.bytes.trans hdata, hnone hdata, hc.seq.trans hseq⟩

theorem endInv_blank
    (cfg : TcpConfig) (peer : History) :
    EndInv cfg peer .blank := by
  refine ⟨finInv_blank, rfl, fun p hp => ?_, fun p hp => ?_,
    ⟨List.nil_prefix, ⟨0, rfl, .inl (Nat.zero_le _)⟩, ?_, ?_, ?_⟩⟩
  · cases hp
  · cases hp
  all_goals
    intro hlive
    cases hlive

/-- A step of one end keeps it in order. -/
theorem endInv_step
    (hcfg : ConfigOk cfg)
    (htimers : TimersInRange cfg)
    (hinv : EndInv cfg peer e)
    (hlegal : ConnLegal e.hist.tcb i)
    (hkeeps : KeepsFin cfg e.hist.tcb i)
    (hfrom : ∀ pcb, i.event = .segment pcb ∨ i.event = .accept pcb → FromPeer peer pcb)
    (htimely : ∀ pcb, i.event = .segment pcb →
      Timely peer.accepted e.consumed e.hist.tcb pcb i.answer) :
    EndInv cfg peer (endStep cfg e i) := by
  have hmid := mid_connStep hinv.iss hinv.recv hinv.sending.seq.send hlegal hfrom htimely
  refine ⟨finInv_step hcfg htimers hinv.sending hlegal hkeeps, ?_, fun p hp => ?_,
    fun p hp => ?_, ?_⟩
  · simp only [endStep, historyStep_tcb]
    exact hmid.iss
  · simp only [endStep, historyStep] at hp
    split at hp
    · exact hmid.syn p hp
    · rcases List.mem_append.1 hp with hp | hp
      · exact hinv.syn p hp
      · exact hmid.syn p hp
  · simp only [endStep, historyStep] at hp
    split at hp
    · exact hmid.acks p hp
    · rename_i hopens
      rcases List.mem_append.1 hp with hp | hp
      · -- more has been consumed since
        refine (hinv.acks p hp).consumes ?_ hmid.recv.isPrefix
        rw [endStep, if_neg hopens]
        exact List.prefix_append _ _
      · exact hmid.acks p hp
  · simp only [endStep, historyStep_tcb]
    exact hmid.recv

/-- A step of the peer keeps it in order too. -/
theorem EndInv.peerStep
    {cfg' : TcpConfig}
    (h : EndInv cfg peer e)
    (hinv : FinInv cfg' peer)
    (hlegal : ConnLegal peer.tcb i)
    (honce : opens i.event = true → peer = .blank) :
    EndInv cfg (historyStep cfg' peer i) e := by
  obtain ⟨hgrows, hfin⟩ := history_grows hinv hlegal honce
  exact ⟨h.sending, h.iss, h.syn,
    fun p hp => (h.acks p hp).mono List.prefix_rfl (h.recv.isPrefix.trans hgrows) hfin,
    h.recv.mono hgrows hfin⟩

end Ends

section Results

variable {cfg : Side → TcpConfig} {s : Net} {e : Side × ConnInput}

/-- Both ends are in order. -/
def NetInv (cfg : Side → TcpConfig) (s : Net) : Prop :=
  ∀ side, EndInv (cfg side) (s side.peer).hist (s side)

theorem netInv_step
    (hcfg : ∀ side, ConfigOk (cfg side))
    (htimers : ∀ side, TimersInRange (cfg side))
    (hinv : NetInv cfg s)
    (hok : NetOk cfg s e) :
    NetInv cfg (netStep cfg s e) := by
  obtain ⟨side, i⟩ := e
  have hpeer : side.peer ≠ side := by
    cases side <;> decide
  have hpeer' : side.peer.peer = side := by
    cases side <;> rfl
  have hself : EndInv (cfg side) (s side.peer).hist (endStep (cfg side) (s side) i) := by
    refine endInv_step (hcfg side) (htimers side) (hinv side) hok.legal hok.keeps
      (fun pcb hevent => ?_) hok.timely
    obtain ⟨p, hp, hc⟩ := hok.carries pcb hevent
    have hother := hinv side.peer
    exact hc.fromPeer hother.sending hother.iss hother.syn hp
  have hother : EndInv (cfg side.peer) (endStep (cfg side) (s side) i).hist (s side.peer) := by
    have hbefore := hinv side.peer
    rw [hpeer'] at hbefore
    exact hbefore.peerStep (hinv side).sending hok.legal fun hopens =>
      congrArg End.hist (hok.once hopens)
  intro side'
  by_cases hside : side' = side
  · subst hside
    simp only [netStep, Function.update_self, Function.update_of_ne hpeer]
    exact hself
  · have hother' : side' = side.peer := by
      cases side <;> cases side' <;> first | rfl | exact absurd rfl hside
    subst hother'
    rw [hpeer']
    simp only [netStep, Function.update_self, Function.update_of_ne hpeer]
    exact hother

theorem netInv_run
    {es : List (Side × ConnInput)}
    (hcfg : ∀ side, ConfigOk (cfg side))
    (htimers : ∀ side, TimersInRange (cfg side))
    (hrun : Guarded (netStep cfg) (NetOk cfg) .blank es) :
    NetInv cfg (run (netStep cfg) .blank es) :=
  run_invariant (NetInv cfg) (fun _ _ hinv hok => netInv_step hcfg htimers hinv hok)
    (fun side => endInv_blank (cfg side) .blank) hrun

/-- A user call or a timeout. -/
theorem netOk_call
    (hlegal : ConnLegal (s e.1).hist.tcb e.2)
    (hkeeps : KeepsFin (cfg e.1) (s e.1).hist.tcb e.2)
    (honce : opens e.2.event = true → s e.1 = .blank)
    (hcall : ∀ pcb, e.2.event ≠ .segment pcb ∧ e.2.event ≠ .accept pcb) :
    NetOk cfg s e :=
  ⟨hlegal, hkeeps, honce, fun pcb h => (h.elim (hcall pcb).1 (hcall pcb).2).elim,
    fun pcb h => ((hcall pcb).1 h).elim⟩

/-- A segment, while less than half the sequence space was handed over. -/
theorem netOk_segment
    {pcb : Pcb}
    (hevent : e.2.event = .segment pcb)
    (hlegal : ConnLegal (s e.1).hist.tcb e.2)
    (hkeeps : KeepsFin (cfg e.1) (s e.1).hist.tcb e.2)
    (hcarries : ∃ p ∈ (s e.1.peer).hist.sent, Carries pcb p)
    (hshort : (s e.1.peer).hist.accepted.length < 2 ^ 31)
    (hconsumed : (s e.1).consumed.length ≤ (s e.1.peer).hist.accepted.length)
    (hlabels : pcb.l5Len ≠ 0 →
      KeepsLabels (s e.1).hist.tcb pcb.mbuf pcb.sentSeq pcb.l5Len e.2.answer)
    (hfin : pcb.flags.fin = true →
      (s e.1).hist.tcb.state ≠ .synRecv ∧ (s e.1).hist.tcb.state ≠ .finWaitII) :
    NetOk cfg s e := by
  refine ⟨hlegal, hkeeps, fun hopens => ?_, fun pcb' h => ?_, fun pcb' h => ?_⟩
  · rw [hevent] at hopens
    cases hopens
  · rw [hevent] at h
    rcases h with h | h
    · cases h
      exact hcarries
    · cases h
  · rw [hevent] at h
    cases h
    refine ⟨fun _ t ht _ hpre => ?_, fun _ => hlabels, fun _ hflag hstate => ?_⟩
    · have hlen := hpre.length_le
      rw [List.length_drop] at hlen
      omega
    · exact (hstate.elim (hfin hflag).1 (hfin hflag).2).elim

/--
The client sends two segments that arrive in the wrong order, one of them twice.  They are
acknowledged, and the client closes.
-/
def transferRun : List (Side × ConnInput) :=
  [(.client, .plain (.open true)),
   (.server, .plain (.accept (plainPcb 0 0 { syn := true } []))),
   (.client, .plain (.segment (plainPcb 0 1 { syn := true, ack := true } []))),
   (.client, .plain (plainSend 7 [1, 2])),
   (.client, .plain (plainSend 8 [3, 4])),
   (.server, .plain (.segment (plainPcb 1 1 { ack := true } []))),
   (.server, .plain (.segment (plainPcb 3 1 { ack := true, psh := true } [3, 4]))),
   (.server, .plain (.segment (plainPcb 1 1 { ack := true, psh := true } [1, 2]))),
   (.server, .plain (.segment (plainPcb 1 1 { ack := true, psh := true } [1, 2]))),
   (.client, .plain (.segment (plainPcb 1 5 { ack := true } []))),
   (.client, .plain .close),
   (.server, .plain (.segment (plainPcb 5 1 { ack := true, fin := true } [])))]

/-- What the server is told of the client in `TS_SYN_RECV` completes the handshake. -/
theorem keepsFin_handshake
    {tcb : Tcb} {i : ConnInput} {cfg : TcpConfig} {pcb : Pcb}
    (hstate : tcb.state = .synRecv)
    (hevent : i.event = .segment pcb)
    (hack : pcb.recvAck ≠ tcb.snd.una)
    (hanswer : NeverAsksClose i.answer) :
    KeepsFin cfg tcb i := by
  refine ⟨fun pcb' _ h _ => ?_, fun _ h => ?_, fun _ _ _ => not_synRecvCloses hanswer,
    fun _ _ _ => not_closesBeforeFin hanswer, ?_, fun h => ?_, fun h => ?_⟩
  · rw [hevent] at h
    cases h
    exact hack
  · rw [hevent] at h
    cases h
  · rintro pcb' (⟨hs, -⟩ | hs) <;> (rw [hstate] at hs; cases hs)
  · have hestab := h.1
    rw [hstate] at hestab
    cases hestab
  · rw [hevent] at h
    cases h

theorem transferRun_ok :
    Guarded (netStep fun _ => defaultConfig) (NetOk fun _ => defaultConfig) .blank transferRun := by
  have hplain : ∀ event, NeverAsksClose (ConnInput.plain event).answer := plain_never_asksClose
  refine ⟨?_, ?_, ?_, ?_, ?_, ?_, ?_, ?_, ?_, ?_, ?_, ?_, trivial⟩
  · exact netOk_call (by decide) (keepsFin_beforeFin (by decide) (by decide) (hplain _) (by decide))
      (fun _ => rfl) fun pcb => ⟨(fun h => by cases h), fun h => by cases h⟩
  · refine ⟨by decide, keepsFin_beforeFin (by decide) (by decide) (hplain _) (by decide),
      fun _ => rfl, fun pcb h => ?_, fun pcb h => by cases h⟩
    rcases h with h | h
    · cases h
    · cases h
      decide
  · exact netOk_segment rfl (by decide)
      (keepsFin_beforeFin (by decide) (by decide) (hplain _) (by decide)) (by decide) (by decide)
      (by decide) (fun h => absurd rfl h) fun h => by cases h
  · exact netOk_call (by decide) (keepsFin_beforeFin (by decide) (by decide) (hplain _) (by decide))
      (fun h => by cases h) fun pcb => ⟨(fun h => by cases h), fun h => by cases h⟩
  · exact netOk_call (by decide) (keepsFin_beforeFin (by decide) (by decide) (hplain _) (by decide))
      (fun h => by cases h) fun pcb => ⟨(fun h => by cases h), fun h => by cases h⟩
  · exact netOk_segment rfl (by decide)
      (keepsFin_handshake (by decide) rfl (by decide) (hplain _)) (by decide) (by decide)
      (by decide) (fun h => absurd rfl h) fun h => by cases h
  · exact netOk_segment rfl (by decide)
      (keepsFin_beforeFin (by decide) (by decide) (hplain _) (by decide)) (by decide) (by decide)
      (by decide)
      (fun _ => ⟨by unfold NoTailTrim; decide, wholeBlocks_consumeAll _, by decide, by decide⟩)
      fun h => by cases h
  · exact netOk_segment rfl (by decide)
      (keepsFin_beforeFin (by decide) (by decide) (hplain _) (by decide)) (by decide) (by decide)
      (by decide)
      (fun _ => ⟨by unfold NoTailTrim; decide, wholeBlocks_consumeAll _, by decide, by decide⟩)
      fun h => by cases h
  · exact netOk_segment rfl (by decide)
      (keepsFin_beforeFin (by decide) (by decide) (hplain _) (by decide)) (by decide) (by decide)
      (by decide)
      (fun _ => ⟨by unfold NoTailTrim; decide, wholeBlocks_consumeAll _, by decide, by decide⟩)
      fun h => by cases h
  · exact netOk_segment rfl (by decide)
      (keepsFin_beforeFin (by decide) (by decide) (hplain _) (by decide)) (by decide) (by decide)
      (by decide) (fun h => absurd rfl h) fun h => by cases h
  · exact netOk_call (by decide) (keepsFin_beforeFin (by decide) (by decide) (hplain _) (by decide))
      (fun h => by cases h) fun pcb => ⟨(fun h => by cases h), fun h => by cases h⟩
  · exact netOk_segment rfl (by decide)
      (keepsFin_beforeFin (by decide) (by decide) (hplain _) (by decide)) (by decide) (by decide)
      (by decide) (fun h => absurd rfl h) fun _ => ⟨by decide, by decide⟩

/-- What one application has consumed, the other one has handed over, in the same order. -/
theorem consumed_prefix
    (cfg : Side → TcpConfig)
    (hcfg : ∀ side, ConfigOk (cfg side))
    (htimers : ∀ side, TimersInRange (cfg side))
    (es : List (Side × ConnInput))
    (hrun : Guarded (netStep cfg) (NetOk cfg) .blank es)
    (side : Side) :
    (run (netStep cfg) .blank es side).consumed <+:
      (run (netStep cfg) .blank es side.peer).hist.accepted :=
  (netInv_run hcfg htimers hrun side).recv.isPrefix

theorem consumed_prefix_transferRun :
    (run (netStep fun _ => defaultConfig) .blank transferRun .server).consumed <+:
      (run (netStep fun _ => defaultConfig) .blank transferRun .client).hist.accepted :=
  consumed_prefix (fun _ => defaultConfig) (fun _ => defaultConfig_ok)
    (fun _ => defaultTimers_inRange) transferRun transferRun_ok .server

/--
An end that has taken the FIN of its peer has been given all that the application of the peer
has handed over, and the peer will take no more.
-/
theorem closed_complete
    (cfg : Side → TcpConfig)
    (hcfg : ∀ side, ConfigOk (cfg side))
    (htimers : ∀ side, TimersInRange (cfg side))
    (es : List (Side × ConnInput))
    (hrun : Guarded (netStep cfg) (NetOk cfg) .blank es)
    (side : Side)
    (hlive : (run (netStep cfg) .blank es side).hist.tcb.inHtable = true)
    (hended : phase (run (netStep cfg) .blank es side).hist.tcb.state = .ended) :
    FinSent (run (netStep cfg) .blank es side.peer).hist ∧
      (run (netStep cfg) .blank es side).consumed =
        (run (netStep cfg) .blank es side.peer).hist.accepted :=
  (netInv_run hcfg htimers hrun side).recv.ended hlive hended

theorem closed_complete_transferRun :
    FinSent (run (netStep fun _ => defaultConfig) .blank transferRun .client).hist ∧
      (run (netStep fun _ => defaultConfig) .blank transferRun .server).consumed =
        (run (netStep fun _ => defaultConfig) .blank transferRun .client).hist.accepted :=
  closed_complete (fun _ => defaultConfig) (fun _ => defaultConfig_ok)
    (fun _ => defaultTimers_inRange) transferRun transferRun_ok .server (by decide) (by decide)

end Results

end StreamTransfer
end Warp17
