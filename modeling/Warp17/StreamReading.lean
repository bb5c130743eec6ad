import Warp17.ReceivePaths
import Warp17.FinAfterData

/-!
# Reading the peer's stream

What one control block has consumed, against what the application of its peer has handed over
(`RecvOk`).  A block that reads has consumed the first bytes of the stream, and `RCV.NXT` is
the number of the next one; its buffer holds slices of the stream (`InOrder`).  In
`TS_FIN_WAIT_I` it may have stepped over the FIN of the peer without a change of state
(`SteppedOver`).  A block that has stopped reading has consumed all of the stream.

The stream may still grow.  The invariant speaks of every stream that begins with the bytes
handed over so far (`Begins`), so it holds of the longer stream without further proof.

Three kinds of segments are left out (`Timely`): those from half the sequence space away,
those that leave a stale label in the receive buffer, and a FIN that comes before the end of
the data where the code does not compare its number.

**Results**
- `RecvOk.mono`: the invariant survives what the peer does.
- `mid_text`: receiving text keeps it.
- `estab_mid` to `timeWait_mid`: so do the segment functions of the states.
- `mid_connStep`: and every input of the control block.
-/

namespace Warp17
namespace StreamReading

open SerialArithmetic StreamSlices SequenceComparison MbufChains ControlBlock ReceiveBuffer
open SendQueue TcpStateMachine TransitionPaths ConnectionRuns ReceiveReassembly
open SendInvariants SendSequence SentStream FinAfterData ReceivePaths

section Streams

/-- The stream begins with these bytes. -/
def Begins (stream : Nat → UInt8) (bytes : List UInt8) : Prop :=
  bytes = slice stream 0 bytes.length

variable {stream : Nat → UInt8} {a b : List UInt8}

theorem begins_getD
    (a : List UInt8) (x : UInt8) :
    Begins (fun k => a.getD k x) a := by
  refine List.ext_getElem (by simp) fun i hi hi' => ?_
  simp [slice, List.getD_eq_getElem?_getD, List.getElem?_eq_getElem hi]

theorem Begins.of_prefix
    (h : Begins stream a)
    (hb : b <+: a) :
    Begins stream b := by
  have htake := List.prefix_iff_eq_take.1 hb
  have hlen := hb.length_le
  rw [h, take_slice, min_eq_left hlen] at htake
  exact htake

/-- A part of the beginning is a slice. -/
theorem Begins.slice_eq
    {s : Nat}
    (h : Begins stream a)
    (hb : b <+: a.drop s) :
    b = slice stream s b.length := by
  have htake := List.prefix_iff_eq_take.1 hb
  have hlen := hb.length_le
  rw [List.length_drop] at hlen
  rw [h, drop_slice, take_slice, Nat.zero_add, min_eq_left hlen] at htake
  exact htake

/-- What every stream that begins so begins with is a prefix. -/
theorem prefix_of_begins
    (h : ∀ stream, Begins stream a → Begins stream b) :
    b <+: a := by
  rw [List.prefix_iff_eq_take]
  rcases Nat.lt_or_ge a.length b.length with hlong | hshort
  · -- the two streams differ right after `a`
    have hzero := h _ (begins_getD a 0)
    have hone := h _ (begins_getD a 1)
    have hread : ∀ x, b = slice (fun k => a.getD k x) 0 b.length → b[a.length] = x := by
      intro x hx
      have hget := List.getElem_of_eq hx hlong
      simpa [slice] using hget
    have hdiffer := (hread 0 hzero).symm.trans (hread 1 hone)
    exact absurd hdiffer (by decide)
  · have hbegins := h _ (begins_getD a 0)
    have htake := congrArg (List.take b.length) (begins_getD a 0)
    rw [take_slice, min_eq_left hshort] at htake
    rw [htake]
    exact hbegins

end Streams

section Invariant

/-- The peer has sent its FIN. -/
def FinSent (peer : History) : Prop :=
  ∃ p ∈ peer.sent, p.flags.fin = true

/-- The number acknowledges no more than what was consumed, and the FIN only after all of it. -/
def AckOf (peer : History) (consumed : List UInt8) (ack : U32) : Prop :=
  ∃ m, ack = seqAt 0 m ∧
    (m ≤ consumed.length + 1 ∨
      m = consumed.length + 2 ∧ FinSent peer ∧ consumed = peer.accepted)

/-- The stream is read in order; a FIN that came early has the number after all of it. -/
structure InOrder (peer : History) (tcb : Tcb) (consumed : List UInt8) : Prop where
  nxt : tcb.rcv.nxt = seqAt 1 consumed.length
  blocks :
    ∀ stream, Begins stream peer.accepted →
      ∃ ps, Blocks stream 1 (consumed.length + 2 ^ 31) consumed.length tcb.rcvBuf ps
  early :
    tcb.finRcvd = true →
      FinSent peer ∧ tcb.rcvFinSeq = seqAt 1 peer.accepted.length ∧
        peer.accepted.length < consumed.length + 2 ^ 31

/-- The stream was read to its end, and the FIN was stepped over. -/
structure SteppedOver (peer : History) (tcb : Tcb) (consumed : List UInt8) : Prop where
  nxt : tcb.rcv.nxt = seqAt 1 consumed.length + 1
  sent : FinSent peer
  all : consumed = peer.accepted
  early : tcb.rcvFinSeq = seqAt 1 consumed.length

/-- What was consumed is what the peer was handed, as far as the state has got. -/
structure RecvOk (peer : History) (tcb : Tcb) (consumed : List UInt8) : Prop where
  isPrefix : consumed <+: peer.accepted
  acked : AckOf peer consumed tcb.rcv.nxt
  opening :
    tcb.inHtable = true → phase tcb.state = .opening →
      consumed = [] ∧ tcb.rcvBuf = [] ∧ tcb.finRcvd = false
  reading :
    tcb.inHtable = true → phase tcb.state = .reading →
      InOrder peer tcb consumed ∨ SteppedOver peer tcb consumed
  ended :
    tcb.inHtable = true → phase tcb.state = .ended → FinSent peer ∧ consumed = peer.accepted

/-- A transition is in order so far; `before` was consumed before it. -/
structure Mid (peer : History) (before : List UInt8) (c : Tsm) : Prop where
  iss : c.tcb.snd.iss = 0
  syn : ∀ p ∈ packets c.out, SynFirst 0 p
  acks : ∀ p ∈ packets c.out, AckOf peer (before ++ consumedIn c.out) p.ack
  recv : RecvOk peer c.tcb (before ++ consumedIn c.out)

variable {peer peer' : History} {tcb tcb' : Tcb} {consumed consumed' before : List UInt8}
  {c c' : Tsm} {ack : U32}

/-- What was acknowledged stays so when more is consumed, or handed over. -/
theorem AckOf.mono
    (h : AckOf peer consumed ack)
    (hmore : consumed <+: consumed')
    (hpre : consumed' <+: peer'.accepted)
    (hfin : FinSent peer → FinSent peer' ∧ peer'.accepted = peer.accepted) :
    AckOf peer' consumed' ack := by
  obtain ⟨m, hack, hm⟩ := h
  have hle := hmore.length_le
  rcases hm with hm | ⟨hm, hsent, hall⟩
  · exact ⟨m, hack, .inl (by omega)⟩
  · obtain ⟨hsent', heq⟩ := hfin hsent
    rw [heq, ← hall] at hpre
    have hsame := hmore.eq_of_length (Nat.le_antisymm hle hpre.length_le)
    exact ⟨m, hack, .inr ⟨hsame ▸ hm, hsent', hsame ▸ hall.trans heq.symm⟩⟩

theorem AckOf.consumes
    (h : AckOf peer consumed ack)
    (hmore : consumed <+: consumed')
    (hpre : consumed' <+: peer.accepted) :
    AckOf peer consumed' ack :=
  h.mono hmore hpre fun hsent => ⟨hsent, rfl⟩

theorem seqAt_one
    (n : Nat) :
    seqAt (1 : U32) n = seqAt 0 (n + 1) := by
  rw [Nat.add_comm, ← seqAt_add]
  rfl

theorem InOrder.acked
    (h : InOrder peer tcb consumed) :
    AckOf peer consumed tcb.rcv.nxt :=
  ⟨consumed.length + 1, h.nxt.trans (seqAt_one _), .inl le_rfl⟩

/-- The number after the FIN. -/
theorem ackOf_fin
    (hsent : FinSent peer)
    (hall : consumed = peer.accepted)
    (hack : ack = seqAt 1 consumed.length + 1) :
    AckOf peer consumed ack := by
  refine ⟨consumed.length + 2, ?_, .inr ⟨rfl, hsent, hall⟩⟩
  rw [hack, seqAt_one]
  exact seqAt_add 0 (consumed.length + 1) 1

theorem SteppedOver.acked
    (h : SteppedOver peer tcb consumed) :
    AckOf peer consumed tcb.rcv.nxt :=
  ackOf_fin h.sent h.all h.nxt

theorem InOrder.same
    (h : InOrder peer tcb consumed)
    (hs : SameRecv tcb tcb') :
    InOrder peer tcb' consumed := by
  refine ⟨hs.nxt.trans h.nxt, fun stream hb => ?_, fun hfin => ?_⟩
  · rw [hs.rcvBuf]
    exact h.blocks stream hb
  · rw [hs.rcvFinSeq]
    exact h.early (hs.finRcvd ▸ hfin)

theorem SteppedOver.same
    (h : SteppedOver peer tcb consumed)
    (hs : SameRecv tcb tcb') :
    SteppedOver peer tcb' consumed :=
  ⟨hs.nxt.trans h.nxt, h.sent, h.all, hs.rcvFinSeq.trans h.early⟩

theorem RecvOk.same
    (h : RecvOk peer tcb consumed)
    (hnxt : tcb'.rcv.nxt = tcb.rcv.nxt)
    (hs : tcb'.inHtable = true → tcb.inHtable = true ∧ SameRecv tcb tcb') :
    RecvOk peer tcb' consumed := by
  refine ⟨h.isPrefix, hnxt ▸ h.acked, fun hlive hphase => ?_, fun hlive hphase => ?_,
    fun hlive hphase => ?_⟩
  · obtain ⟨hlive', hsame⟩ := hs hlive
    rw [hsame.phase] at hphase
    rw [hsame.rcvBuf, hsame.finRcvd]
    exact h.opening hlive' hphase
  · obtain ⟨hlive', hsame⟩ := hs hlive
    rw [hsame.phase] at hphase
    exact (h.reading hlive' hphase).imp (·.same hsame) (·.same hsame)
  · obtain ⟨hlive', hsame⟩ := hs hlive
    rw [hsame.phase] at hphase
    exact h.ended hlive' hphase

/-- The invariant survives what the peer does: its stream grows, but not after the FIN. -/
theorem RecvOk.mono
    (h : RecvOk peer tcb consumed)
    (hgrows : peer.accepted <+: peer'.accepted)
    (hfin : FinSent peer → FinSent peer' ∧ peer'.accepted = peer.accepted) :
    RecvOk peer' tcb consumed := by
  have hpre := h.isPrefix.trans hgrows
  refine ⟨hpre, h.acked.mono List.prefix_rfl hpre hfin, h.opening, fun hlive hphase => ?_,
    fun hlive hphase => ?_⟩
  · rcases h.reading hlive hphase with hin | hover
    · refine .inl ⟨hin.nxt, fun stream hb => hin.blocks stream (hb.of_prefix hgrows), ?_⟩
      intro hrcvd
      obtain ⟨hsent, hseq, hnear⟩ := hin.early hrcvd
      obtain ⟨hsent', heq⟩ := hfin hsent
      exact ⟨hsent', heq ▸ hseq, heq ▸ hnear⟩
    · obtain ⟨hsent', heq⟩ := hfin hover.sent
      exact .inr ⟨hover.nxt, hsent', heq ▸ hover.all, hover.early⟩
  · obtain ⟨hsent, hall⟩ := h.ended hlive hphase
    obtain ⟨hsent', heq⟩ := hfin hsent
    exact ⟨hsent', heq ▸ hall⟩

theorem segLE_refl
    (x : U32) :
    segLE x x = true := by
  rw [segLE, decide_eq_true rfl, Bool.true_or]

/-- When the FIN is the next number, or was passed, everything has been consumed. -/
theorem InOrder.all_consumed
    (h : InOrder peer tcb consumed)
    (hpre : consumed <+: peer.accepted)
    (hnear : peer.accepted.length < consumed.length + 2 ^ 31)
    (hnext : segLE (seqAt 1 peer.accepted.length) tcb.rcv.nxt = true) :
    consumed = peer.accepted := by
  have hle := hpre.length_le
  rw [h.nxt, segLE_seqAt _ (by omega) (by omega), decide_eq_true_eq] at hnext
  exact hpre.eq_of_length (by omega)

/-- A block that has stepped over the FIN does not expect its number. -/
theorem SteppedOver.nxt_ne
    (h : SteppedOver peer tcb consumed) :
    tcb.rcv.nxt ≠ seqAt 1 peer.accepted.length := by
  rw [h.nxt, ← h.all]
  intro hnxt
  rw [add_eq_left] at hnxt
  exact absurd hnxt (by decide)

theorem Mid.start
    (hiss : tcb.snd.iss = 0)
    (h : RecvOk peer tcb consumed) :
    Mid peer consumed (Tsm.start tcb) := by
  refine ⟨hiss, fun p hp => by simp [Tsm.start] at hp, fun p hp => by simp [Tsm.start] at hp, ?_⟩
  simpa [Tsm.start, consumedIn] using h

theorem Mid.start_reads
    (h : Mid peer consumed (Tsm.start tcb))
    (hlive : tcb.inHtable = true)
    (hphase : phase tcb.state = .reading) :
    consumed <+: peer.accepted ∧
      (InOrder peer tcb consumed ∨ SteppedOver peer tcb consumed) := by
  have hrecv := h.recv
  simp only [Tsm.start, consumedIn, List.flatMap_nil, List.append_nil] at hrecv
  exact ⟨hrecv.isPrefix, hrecv.reading hlive hphase⟩

theorem Mid.aside
    (h : Mid peer before c)
    (ha : Aside c c') :
    Mid peer before c' := by
  obtain ⟨o, ho, hall⟩ := ha.out
  rw [h.iss] at hall
  have hnone : consumedIn c'.out = consumedIn c.out := by
    rw [ho, consumedIn_append, consumedIn_aside hall, List.append_nil]
  refine ⟨ha.iss.trans h.iss, fun p hp => ?_, fun p hp => ?_, ?_⟩
  · rw [ho, packets_append, List.mem_append] at hp
    rcases hp with hp | hp
    · exact h.syn p hp
    · exact (packet_aside hall hp).1
  · rw [hnone]
    rw [ho, packets_append, List.mem_append] at hp
    rcases hp with hp | hp
    · exact h.acks p hp
    · rw [(packet_aside hall hp).2]
      exact h.recv.acked
  · rw [hnone]
    exact h.recv.same ha.nxt ha.live

/-- The reading stops when everything was read; `c₀` has stepped over the FIN, or it is `c`. -/
theorem Mid.ends
    {c₀ : Tsm}
    (h : Mid peer before c)
    (he : Ends c₀ c')
    (hiss : c₀.tcb.snd.iss = c.tcb.snd.iss)
    (hout : c₀.out = c.out)
    (hnxt : AckOf peer (before ++ consumedIn c.out) c₀.tcb.rcv.nxt)
    (hall : c₀.tcb.inHtable = true →
      FinSent peer ∧ before ++ consumedIn c.out = peer.accepted) :
    Mid peer before c' := by
  obtain ⟨o, ho, hrest⟩ := he.out
  rw [hiss, h.iss] at hrest
  rw [hout] at ho
  have hnone : consumedIn c'.out = consumedIn c.out := by
    rw [ho, consumedIn_append, consumedIn_aside hrest, List.append_nil]
  refine ⟨he.iss.trans (hiss.trans h.iss), fun p hp => ?_, fun p hp => ?_, ?_⟩
  · rw [ho, packets_append, List.mem_append] at hp
    rcases hp with hp | hp
    · exact h.syn p hp
    · exact (packet_aside hrest hp).1
  · rw [hnone]
    rw [ho, packets_append, List.mem_append] at hp
    rcases hp with hp | hp
    · exact h.acks p hp
    · rw [(packet_aside hrest hp).2]
      exact hnxt
  · rw [hnone]
    refine ⟨h.recv.isPrefix, he.nxt ▸ hnxt, fun hlive hphase => ?_, fun hlive hphase => ?_,
      fun hlive _ => ?_⟩
    · rw [(he.live hlive).2] at hphase
      cases hphase
    · rw [(he.live hlive).2] at hphase
      cases hphase
    · exact hall (he.live hlive).1

end Invariant

section Text

/-- A segment of the peer: its text is a part of the stream, and its FIN follows the stream. -/
structure FromPeer (peer : History) (pcb : Pcb) : Prop where
  text :
    pcb.l5Len ≠ 0 →
      ChainOk pcb.mbuf ∧ pcb.l5Len = BitVec.ofNat 32 (chainBytes pcb.mbuf).length ∧
        (chainBytes pcb.mbuf).length < 2 ^ 16 ∧
          ∃ s, pcb.sentSeq = seqAt 1 s ∧ chainBytes pcb.mbuf <+: peer.accepted.drop s
  syn : pcb.flags.syn = true → pcb.sentSeq = 0 ∧ pcb.l5Len = 0
  fin :
    pcb.flags.fin = true →
      FinSent peer ∧ chainBytes pcb.mbuf = [] ∧ pcb.l5Len = 0 ∧
        pcb.sentSeq = seqAt 1 peer.accepted.length

/-- The segments that do not reach one of the defects of the receiving half. -/
structure Timely (accepted consumed : List UInt8) (tcb : Tcb) (pcb : Pcb) (answer : DeliverCb) :
    Prop where
  /-- text and FIN are from less than half the sequence space away -/
  near :
    pcb.l5Len ≠ 0 ∨ pcb.flags.fin = true →
      ∀ s ≤ accepted.length, pcb.sentSeq = seqAt 1 s →
        chainBytes pcb.mbuf <+: accepted.drop s →
          consumed.length < s + 2 ^ 31 ∧
            s + (chainBytes pcb.mbuf).length < consumed.length + 2 ^ 31
  /-- no stored block loses only a part of its bytes -/
  labels :
    ReachesAck tcb pcb → pcb.l5Len ≠ 0 →
      KeepsLabels tcb pcb.mbuf pcb.sentSeq pcb.l5Len answer
  /-- `TS_SYN_RECV` and `TS_FIN_WAIT_II` take a FIN whatever its number is -/
  finNext :
    ReachesAck tcb pcb → pcb.flags.fin = true →
      tcb.state = .synRecv ∨ tcb.state = .finWaitII → segLE pcb.sentSeq tcb.rcv.nxt = true

variable {env : TsmEnv} {peer : History} {tcb tcb' : Tcb} {consumed before : List UInt8}
  {pcb : Pcb} {c c' : Tsm} {answer : DeliverCb}

theorem keepsLabels_congr
    {mbuf : Chain} {segSeq segLen : U32}
    (h : KeepsLabels tcb mbuf segSeq segLen answer)
    (hbuf : tcb'.rcvBuf = tcb.rcvBuf)
    (hnxt : tcb'.rcv.nxt = tcb.rcv.nxt) :
    KeepsLabels tcb' mbuf segSeq segLen answer := by
  have hplace : placeSeq tcb' segSeq = placeSeq tcb segSeq := by
    rw [placeSeq, placeSeq, hnxt]
  exact
    { noTailTrim := by
        rw [hbuf, hplace]
        exact h.noTailTrim
      wholeBlocks := by
        rw [(tcpDataHandle_congr mbuf segSeq segLen answer hnxt hbuf).1]
        exact h.wholeBlocks
      frontTrim := by
        rw [hnxt]
        exact h.frontTrim
      overlapTrim := by
        rw [hbuf, hplace]
        exact h.overlapTrim }

theorem urgTcb_recv
    (pcb : Pcb) (tcb : Tcb) :
    (urgTcb pcb tcb).rcvBuf = tcb.rcvBuf ∧ (urgTcb pcb tcb).rcv.nxt = tcb.rcv.nxt ∧
      (urgTcb pcb tcb).finRcvd = tcb.finRcvd ∧ (urgTcb pcb tcb).rcvFinSeq = tcb.rcvFinSeq := by
  unfold urgTcb
  split <;> exact ⟨rfl, rfl, rfl, rfl⟩

/-- A call with a segment of the stream, while it is read in order. -/
theorem InOrder.handled
    {s : Nat}
    (h : InOrder peer tcb consumed)
    (hpre : consumed <+: peer.accepted)
    (hchain : ChainOk pcb.mbuf)
    (hlen : pcb.l5Len = BitVec.ofNat 32 (chainBytes pcb.mbuf).length)
    (hsize : (chainBytes pcb.mbuf).length < 2 ^ 16)
    (hseq : pcb.sentSeq = seqAt 1 s)
    (hplace : chainBytes pcb.mbuf <+: peer.accepted.drop s)
    (hlow : consumed.length < s + 2 ^ 31)
    (hhigh : s + (chainBytes pcb.mbuf).length < consumed.length + 2 ^ 31)
    (hkeeps : KeepsLabels tcb pcb.mbuf pcb.sentSeq pcb.l5Len answer) :
    let r := tcpDataHandle (urgTcb pcb tcb) pcb.mbuf pcb.sentSeq pcb.l5Len answer
    consumed ++ r.calls.flatMap DeliverCall.bytes <+: peer.accepted ∧
      InOrder peer r.tcb (consumed ++ r.calls.flatMap DeliverCall.bytes) := by
  intro r
  obtain ⟨hbuf, hnxt, hrcvd, hfinSeq⟩ := urgTcb_recv pcb tcb
  -- the call is the same for every stream that begins with what was handed over
  have hcall : ∀ stream, Begins stream peer.accepted →
      Begins stream (consumed ++ r.calls.flatMap DeliverCall.bytes) ∧
        r.tcb.rcv.nxt = seqAt 1 (consumed ++ r.calls.flatMap DeliverCall.bytes).length ∧
        (∃ ps, Blocks stream 1
          ((consumed ++ r.calls.flatMap DeliverCall.bytes).length + 2 ^ 31)
          (consumed ++ r.calls.flatMap DeliverCall.bytes).length r.tcb.rcvBuf ps) ∧
        r.tcb.finRcvd = tcb.finRcvd ∧ r.tcb.rcvFinSeq = tcb.rcvFinSeq := by
    intro stream hb
    obtain ⟨ps, hblocks⟩ := h.blocks stream hb
    rw [hseq, hlen] at hkeeps
    obtain ⟨m, buf', ps', hspec⟩ := tcpDataHandle_spec (hnxt.trans h.nxt) (hbuf ▸ hblocks)
      hchain rfl (hb.slice_eq hplace) hsize hlow.le hhigh (keepsLabels_congr hkeeps hbuf hnxt)
    rw [← hseq, ← hlen] at hspec
    have hnew : consumed ++ r.calls.flatMap DeliverCall.bytes =
        slice stream 0 (consumed.length + m) := by
      have hold : consumed = slice stream 0 consumed.length := hb.of_prefix hpre
      rw [hspec.calls, ← slice_append stream 0 consumed.length m, Nat.zero_add, ← hold]
    have hcount : (consumed ++ r.calls.flatMap DeliverCall.bytes).length =
        consumed.length + m := by
      rw [hnew, length_slice]
    refine ⟨?_, ?_, ⟨ps', ?_⟩, ?_, ?_⟩
    · rw [Begins, hcount]
      exact hnew
    · rw [hcount, hspec.tcb_eq]
    · rw [hcount, hspec.tcb_eq]
      exact hspec.blocks
    · rw [hspec.tcb_eq]
      exact hrcvd
    · rw [hspec.tcb_eq]
      exact hfinSeq
  obtain ⟨-, hnext, -, hrcvd', hfinSeq'⟩ := hcall _ (begins_getD _ 0)
  refine ⟨prefix_of_begins fun stream hb => (hcall stream hb).1, hnext,
    fun stream hb => (hcall stream hb).2.2.1, fun hfin => ?_⟩
  obtain ⟨hsent, hseqFin, hnear⟩ := h.early (hrcvd' ▸ hfin)
  refine ⟨hsent, hfinSeq'.trans hseqFin, ?_⟩
  rw [List.length_append]
  omega

/-- After the FIN was stepped over a call delivers nothing. -/
theorem SteppedOver.handled
    {s : Nat}
    (answer : DeliverCb)
    (h : SteppedOver peer tcb consumed)
    (hlen : pcb.l5Len = BitVec.ofNat 32 (chainBytes pcb.mbuf).length)
    (hpos : 0 < (chainBytes pcb.mbuf).length)
    (hseq : pcb.sentSeq = seqAt 1 s)
    (hplace : chainBytes pcb.mbuf <+: peer.accepted.drop s)
    (hlow : consumed.length < s + 2 ^ 31) :
    let r := tcpDataHandle (urgTcb pcb tcb) pcb.mbuf pcb.sentSeq pcb.l5Len answer
    r.calls = [] ∧ SteppedOver peer r.tcb consumed := by
  obtain ⟨-, hnxt, -, hfinSeq⟩ := urgTcb_recv pcb tcb
  have hle := hplace.length_le
  rw [List.length_drop, ← h.all] at hle
  have hold : segLE (pcb.sentSeq + pcb.l5Len) (urgTcb pcb tcb).rcv.nxt = true := by
    have hend : seqAt (1 : U32) consumed.length + 1 = seqAt 1 (consumed.length + 1) :=
      seqAt_add 1 consumed.length 1
    rw [hnxt, h.nxt, hseq, hlen, seqAt_add, hend, segLE_seqAt _ (by omega) (by omega),
      decide_eq_true_eq]
    omega
  simp only [tcpDataHandle, hold, if_true, true_and]
  exact ⟨hnxt.trans h.nxt, h.sent, h.all, hfinSeq.trans h.early⟩

/-- A call during a transition that reads. -/
theorem Mid.handled
    (h : Mid peer before c)
    (hphase : phase c.tcb.state = .reading)
    (hlive : c.tcb.inHtable = true)
    (hfrom : FromPeer peer pcb)
    (hlen : pcb.l5Len ≠ 0)
    (hnear : ∀ s ≤ peer.accepted.length, pcb.sentSeq = seqAt 1 s →
      chainBytes pcb.mbuf <+: peer.accepted.drop s →
        (before ++ consumedIn c.out).length < s + 2 ^ 31 ∧
          s + (chainBytes pcb.mbuf).length < (before ++ consumedIn c.out).length + 2 ^ 31)
    (hkeeps : KeepsLabels c.tcb pcb.mbuf pcb.sentSeq pcb.l5Len env.answer) :
    Mid peer before (TcpStateMachine.handled c (textCall env pcb c)) ∧
      (TcpStateMachine.handled c (textCall env pcb c)).tcb.inHtable = true ∧
      phase (TcpStateMachine.handled c (textCall env pcb c)).tcb.state = .reading := by
  obtain ⟨hchain, hl5, hsize, s, hseq, hplace⟩ := hfrom.text hlen
  have hpos := hchain.bytes_pos
  have hs : s ≤ peer.accepted.length := by
    have hle := hplace.length_le
    rw [List.length_drop] at hle
    omega
  obtain ⟨hlow, hhigh⟩ := hnear s hs hseq hplace
  have hquiet : Quiet c (TcpStateMachine.handled c (textCall env pcb c)) :=
    quiet_handled env pcb c pcb.sentSeq pcb.l5Len
  have hphase' : phase (TcpStateMachine.handled c (textCall env pcb c)).tcb.state = .reading := by
    rw [hquiet.same.state]
    exact hphase
  have hiss : (TcpStateMachine.handled c (textCall env pcb c)).tcb.snd.iss = 0 := by
    rw [hquiet.same.snd]
    exact h.iss
  have hreads : before ++ consumedIn (TcpStateMachine.handled c (textCall env pcb c)).out <+:
        peer.accepted ∧
      (InOrder peer (TcpStateMachine.handled c (textCall env pcb c)).tcb
          (before ++ consumedIn (TcpStateMachine.handled c (textCall env pcb c)).out) ∨
        SteppedOver peer (TcpStateMachine.handled c (textCall env pcb c)).tcb
          (before ++ consumedIn (TcpStateMachine.handled c (textCall env pcb c)).out)) := by
    rw [consumedIn_handled, ← List.append_assoc]
    rcases h.recv.reading hlive hphase with hin | hover
    · obtain ⟨hpre, hin'⟩ :=
        hin.handled h.recv.isPrefix hchain hl5 hsize hseq hplace hlow hhigh hkeeps
      exact ⟨hpre, .inl hin'⟩
    · obtain ⟨hcalls, hover'⟩ := hover.handled env.answer hl5 hpos hseq hplace hlow
      have hnone : (textCall env pcb c).calls.flatMap DeliverCall.bytes = [] := by
        rw [textCall, hcalls]
        rfl
      rw [hnone, List.append_nil]
      exact ⟨h.recv.isPrefix, .inr hover'⟩
  have hmore : before ++ consumedIn c.out <+:
      before ++ consumedIn (TcpStateMachine.handled c (textCall env pcb c)).out := by
    rw [consumedIn_handled, ← List.append_assoc]
    exact List.prefix_append _ _
  refine ⟨⟨hiss, fun p hp => ?_, fun p hp => ?_, hreads.1, ?_, fun _ hopen => ?_,
    fun _ _ => hreads.2, fun _ hended => ?_⟩, hquiet.same.inHtable.trans hlive, hphase'⟩
  · rw [packets_handled] at hp
    exact h.syn p hp
  · rw [packets_handled] at hp
    exact (h.acks p hp).consumes hmore hreads.1
  · exact hreads.2.elim InOrder.acked SteppedOver.acked
  · rw [hphase'] at hopen
    cases hopen
  · rw [hphase'] at hended
    cases hended

end Text

section Fins

variable {env : TsmEnv} {peer : History} {tcb : Tcb} {consumed before : List UInt8}
  {pcb : Pcb} {c c' : Tsm} {answer : DeliverCb}

theorem consumedIn_of_aside
    (ha : Aside (Tsm.start tcb) c) :
    consumedIn c.out = [] := by
  obtain ⟨o, ho, hall⟩ := ha.out
  rw [ho]
  exact consumedIn_aside hall

/-- A FIN of the peer is from less than half the sequence space away. -/
theorem Timely.finNear
    (h : Timely peer.accepted consumed tcb pcb answer)
    (hfrom : FromPeer peer pcb)
    (hfin : pcb.flags.fin = true) :
    peer.accepted.length < consumed.length + 2 ^ 31 := by
  obtain ⟨-, hbytes, -, hseq⟩ := hfrom.fin hfin
  have hnear := h.near (.inr hfin) peer.accepted.length le_rfl hseq
    (hbytes ▸ List.nil_prefix)
  rw [hbytes] at hnear
  exact hnear.2

/-- The FIN has the number after the stream. -/
theorem FromPeer.finNumber
    (hfrom : FromPeer peer pcb)
    (hfin : pcb.flags.fin = true) :
    pcb.sentSeq + pcb.l5Len = seqAt 1 peer.accepted.length := by
  obtain ⟨-, -, hlen, hseq⟩ := hfrom.fin hfin
  rw [hlen, hseq]
  exact BitVec.add_zero _

/-- The text of a segment, after a part of the transition that left the reading alone. -/
theorem mid_text
    (h : Mid peer consumed c)
    (ha : Aside (Tsm.start tcb) c)
    (hlive : c.tcb.inHtable = true)
    (hphase : phase tcb.state = .reading)
    (hfrom : FromPeer peer pcb)
    (htimely : Timely peer.accepted consumed tcb pcb env.answer)
    (hreach : ReachesAck tcb pcb)
    (hc' : c' = receiveText env pcb c ∨ c' = receiveAndAck env pcb c) :
    Mid peer consumed c' ∧ c'.tcb.inHtable = true ∧ phase c'.tcb.state = .reading ∧
      (pcb.l5Len = 0 → c' = c) := by
  obtain ⟨-, hsame⟩ := ha.live hlive
  have hphase' : phase c.tcb.state = .reading := hsame.phase.trans hphase
  by_cases hlen : pcb.l5Len = 0
  · obtain ⟨htext, hack⟩ : receiveText env pcb c = c ∧ receiveAndAck env pcb c = c :=
      receiveText_none hlen
    have heq : c' = c := by
      rcases hc' with rfl | rfl
      · exact htext
      · exact hack
    rw [heq]
    exact ⟨h, hlive, hphase', fun _ => rfl⟩
  · have hnone := consumedIn_of_aside ha
    have hkeeps := keepsLabels_congr (htimely.labels hreach hlen) hsame.rcvBuf hsame.nxt
    have hnear := htimely.near (.inl hlen)
    obtain ⟨hmid, hlive', hreads⟩ := h.handled hphase' hlive hfrom hlen
      (by rw [hnone, List.append_nil]; exact hnear) hkeeps
    have hafter : Aside (TcpStateMachine.handled c (textCall env pcb c)) c' := by
      rcases hc' with rfl | rfl
      · exact aside_receiveText hlen
      · exact aside_receiveAndAck hlen
    have hused : c'.tcb.inHtable = true := by
      obtain ⟨htext, hack⟩ : (receiveText env pcb c).tcb.inHtable = true ∧
          (receiveAndAck env pcb c).tcb.inHtable = true :=
        reads_receiveText hlive hphase'
      rcases hc' with rfl | rfl
      · exact htext
      · exact hack
    exact ⟨hmid.aside hafter, hused, (hafter.live hused).2.phase.trans hreads,
      fun hzero => absurd hzero hlen⟩

/-- In the states that take any FIN, the one that is taken is next. -/
theorem Timely.finIsNext
    (h : Timely peer.accepted consumed tcb pcb answer)
    (hfrom : FromPeer peer pcb)
    (hreach : ReachesAck tcb pcb)
    (hfin : pcb.flags.fin = true)
    (hstate : tcb.state = .synRecv ∨ tcb.state = .finWaitII)
    (hpre : consumed <+: peer.accepted)
    (hreads : InOrder peer tcb consumed ∨ SteppedOver peer tcb consumed) :
    tcb.rcv.nxt = seqAt 1 peer.accepted.length := by
  obtain ⟨-, -, hlen, hseq⟩ := hfrom.fin hfin
  have hnext := h.finNext hreach hfin hstate
  rw [hseq] at hnext
  rcases hreads with hin | hover
  · rw [hin.nxt, hin.all_consumed hpre (h.finNear hfrom hfin) hnext]
  · -- the acceptance test has refused a FIN that was stepped over
    have haccept := hreach.1
    have hlater : segGE pcb.sentSeq tcb.rcv.nxt = false := by
      have hend : seqAt (1 : U32) consumed.length + 1 = seqAt 1 (consumed.length + 1) :=
        seqAt_add 1 consumed.length 1
      rw [segGE, hseq, ← hover.all, hover.nxt, hend, segLE_seqAt _ (by omega) (by omega)]
      exact decide_eq_false (by omega)
    simp only [tsmDoReceiveAcceptanceTest, hlen, if_true, hlater, Bool.false_and] at haccept
    split at haccept
    · rw [← of_decide_eq_true haccept, hseq]
    · cases haccept

/-- Remembering a FIN that came early. -/
theorem Mid.remember
    (h : Mid peer before c)
    (hphase : phase c.tcb.state = .reading)
    (hfrom : FromPeer peer pcb)
    (hfin : pcb.flags.fin = true)
    (hnear : peer.accepted.length < (before ++ consumedIn c.out).length + 2 ^ 31) :
    Mid peer before (rememberFin pcb c) := by
  have hsent := (hfrom.fin hfin).1
  have hnumber := hfrom.finNumber hfin
  refine ⟨h.iss, h.syn, h.acks, h.recv.isPrefix, h.recv.acked, fun _ hopen => ?_,
    fun hlive hreads => ?_, fun _ hended => ?_⟩
  · exact absurd (hphase.symm.trans hopen) (by decide)
  · rcases h.recv.reading hlive hreads with hin | hover
    · exact .inl ⟨hin.nxt, hin.blocks, fun _ => ⟨hsent, hnumber, hnear⟩⟩
    · refine .inr ⟨hover.nxt, hover.sent, hover.all, hnumber.trans ?_⟩
      exact congrArg (fun bytes => seqAt 1 (List.length bytes)) hover.all.symm
  · exact absurd (hphase.symm.trans hended) (by decide)

/-- Taking the FIN that is next. -/
theorem Mid.finTaken
    (h : Mid peer before c)
    (hlive : c.tcb.inHtable = true)
    (hphase : phase c.tcb.state = .reading)
    (hends : Ends (consumeFin c) c')
    (hsent : FinSent peer)
    (hnear : peer.accepted.length < (before ++ consumedIn c.out).length + 2 ^ 31)
    (hnext : c.tcb.rcv.nxt = seqAt 1 peer.accepted.length) :
    Mid peer before c' := by
  have hall : before ++ consumedIn c.out = peer.accepted := by
    rcases h.recv.reading hlive hphase with hin | hover
    · exact hin.all_consumed h.recv.isPrefix hnear (hnext ▸ segLE_refl _)
    · exact absurd hnext hover.nxt_ne
  refine h.ends hends rfl rfl (ackOf_fin hsent hall ?_) fun _ => ⟨hsent, hall⟩
  rw [hall, ← hnext]
  rfl

/-- Taking the FIN that came early. -/
theorem Mid.earlyTaken
    (h : Mid peer before c)
    (hlive : c.tcb.inHtable = true)
    (hphase : phase c.tcb.state = .reading)
    (hends : Ends (consumeFin c) c')
    (hrcvd : c.tcb.finRcvd = true)
    (hnext : c.tcb.rcv.nxt = c.tcb.rcvFinSeq) :
    Mid peer before c' := by
  rcases h.recv.reading hlive hphase with hin | hover
  · obtain ⟨hsent, hseq, hnear⟩ := hin.early hrcvd
    exact h.finTaken hlive hphase hends hsent hnear (hnext.trans hseq)
  · rw [hover.early, hover.all] at hnext
    exact absurd hnext hover.nxt_ne

/-- Stepping over the FIN that came early. -/
theorem Mid.stepOver
    (h : Mid peer before c)
    (hlive : c.tcb.inHtable = true)
    (hphase : phase c.tcb.state = .reading) :
    Mid peer before (finWaitIStepOverFin c) := by
  unfold finWaitIStepOverFin
  split
  · rename_i hcond
    rw [Bool.and_eq_true, decide_eq_true_eq] at hcond
    have hover : SteppedOver peer (consumeFin c).tcb (before ++ consumedIn c.out) := by
      rcases h.recv.reading hlive hphase with hin | hover
      · obtain ⟨hsent, hseq, hnear⟩ := hin.early hcond.1
        have hall := hin.all_consumed h.recv.isPrefix hnear (by
          rw [hcond.2, hseq]
          exact segLE_refl _)
        exact ⟨congrArg (· + 1) hin.nxt, hsent, hall, hall ▸ hseq⟩
      · rw [hover.early, hover.all] at hcond
        exact absurd hcond.2 hover.nxt_ne
    refine ⟨h.iss, h.syn, h.acks, h.recv.isPrefix, hover.acked, fun _ hopen => ?_,
      fun _ _ => .inr hover, fun _ hended => ?_⟩
    · exact absurd (hphase.symm.trans hopen) (by decide)
    · exact absurd (hphase.symm.trans hended) (by decide)
  · exact h

end Fins

section Segments

variable {env : TsmEnv} {peer : History} {tcb : Tcb} {consumed : List UInt8} {pcb : Pcb}
  {c : Tsm}

theorem aside_prologueReset
    (c : Tsm) :
    Aside c (notifyAndClose (rstReceived c)) :=
  (aside_rstReceived c).trans (aside_notifyAndClose _)

theorem acked_live
    (pcb : Pcb) (finSent : Bool) (c : Tsm) :
    (acked pcb finSent c).tcb.inHtable = c.tcb.inHtable := by
  have hclean : ∀ a, (tsmCleanupRetransQueu c a).tcb.inHtable = c.tcb.inHtable := by
    intro a
    simp only [tsmCleanupRetransQueu]
    repeat' split
    all_goals rfl
  have harrived : (ackArrived pcb finSent c).tcb.inHtable = c.tcb.inHtable :=
    ackArrived_elim (P := fun c' => c'.tcb.inHtable = c.tcb.inHtable) rfl
      (fun _ _ _ => hclean _) fun _ _ _ => hclean _
  rw [← harrived, acked, onTcb_tcb]
  unfold updateSndWnd
  split <;> rfl

/-- The FIN bit in `TS_ESTABLISHED`. -/
theorem estabFin_mid
    (h : Mid peer consumed c)
    (hlive : c.tcb.inHtable = true)
    (hphase : phase c.tcb.state = .reading)
    (hfrom : FromPeer peer pcb)
    (hnear : pcb.flags.fin = true →
      peer.accepted.length < (consumed ++ consumedIn c.out).length + 2 ^ 31) :
    Mid peer consumed (estabFin env pcb c) := by
  have hends : Ends (consumeFin c) (estabConsumeFin env c) :=
    (aside_notif (consumeFin c) .sessClosing).ends (ends_enterCloseWait env.cfg _)
  unfold estabFin
  split
  · rename_i hfin
    split
    · exact h.remember hphase hfrom hfin (hnear hfin)
    · rename_i hnext
      exact h.finTaken hlive hphase hends (hfrom.fin hfin).1 (hnear hfin)
        ((not_not.1 hnext).trans (hfrom.finNumber hfin))
  · split
    · rename_i hearly
      rw [Bool.and_eq_true, decide_eq_true_eq] at hearly
      exact h.earlyTaken hlive hphase hends hearly.1 hearly.2
    · exact h

theorem estab_mid
    (h : Mid peer consumed (Tsm.start tcb))
    (hlive : tcb.inHtable = true)
    (hstate : tcb.state = .established)
    (hfrom : FromPeer peer pcb)
    (htimely : Timely peer.accepted consumed tcb pcb env.answer) :
    Mid peer consumed (estabSegment env pcb (Tsm.start tcb)) := by
  have hphase : phase tcb.state = .reading := by
    rw [hstate]
    rfl
  refine segmentPrologue_cases (P := Mid peer consumed) h (h.aside (aside_ack _))
    (fun _ => h.aside (aside_prologueReset _)) (fun _ => h.aside (aside_notifyAndClose _))
    fun hreach => ?_
  refine ackProcessing_elim (P := Mid peer consumed) (fun _ => h.aside (aside_ackArrived _ _ _))
    fun _ => ?_
  have ha := aside_acked pcb false (Tsm.start tcb)
  obtain ⟨htext, hlive', hreads, hnone⟩ := mid_text (h.aside ha) ha
    ((acked_live _ _ _).trans hlive) hphase hfrom htimely hreach (.inr rfl)
  refine estabFin_mid htext hlive' hreads hfrom fun hfin => ?_
  rw [hnone (hfrom.fin hfin).2.2.1, consumedIn_of_aside ha, List.append_nil]
  exact htimely.finNear hfrom hfin

theorem synRecv_mid
    (h : Mid peer consumed (Tsm.start tcb))
    (hlive : tcb.inHtable = true)
    (hstate : tcb.state = .synRecv)
    (hfrom : FromPeer peer pcb)
    (htimely : Timely peer.accepted consumed tcb pcb env.answer) :
    Mid peer consumed (synRecvSegment env pcb (Tsm.start tcb)) := by
  have hphase : phase tcb.state = .reading := by
    rw [hstate]
    rfl
  refine segmentPrologue_cases (P := Mid peer consumed) h (h.aside (aside_ack _))
    (fun _ => h.aside (aside_prologueReset _)) (fun _ => h.aside (aside_notifyAndClose _))
    fun hreach => ?_
  obtain ⟨hpre, hin⟩ := h.start_reads hlive hphase
  have hacked : ∀ c, Aside (Tsm.start tcb) c → c.tcb.inHtable = true →
      Mid peer consumed (synRecvAcked env pcb c) := by
    intro c ha hlivec
    have hwnd := ha.trans (aside_onTcb (f := setSndWnd pcb) rfl rfl ⟨rfl, rfl, rfl, rfl, rfl⟩)
    obtain ⟨htext, hlive', hreads, hnone⟩ := mid_text (h.aside hwnd) hwnd hlivec hphase hfrom
      htimely hreach (.inr rfl)
    unfold synRecvAcked
    simp only
    split
    · rename_i hfin
      have hsame := hnone (hfrom.fin hfin).2.2.1
      have hnear := htimely.finNear hfrom hfin
      have hnext := htimely.finIsNext hfrom hreach hfin (.inl hstate) hpre hin
      refine htext.finTaken hlive' hreads
        ((aside_notif _ _).ends (ends_enterCloseWait env.cfg _)) (hfrom.fin hfin).1 ?_ ?_
      · rw [hsame, consumedIn_of_aside hwnd, List.append_nil]
        exact hnear
      · rw [hsame, hwnd.nxt]
        exact hnext
    · exact htext.aside (Aside.trans (aside_onTcb rfl rfl ⟨rfl, rfl, rfl, rfl, rfl⟩)
        (aside_setState fun _ => hreads.symm))
  unfold synRecvAck
  split
  · exact h.aside (aside_ctrl _ _ rfl)
  · simp only
    split
    · have hinc : Aside (Tsm.start tcb) (incUna (Tsm.start tcb)) :=
        aside_onTcb rfl rfl ⟨rfl, rfl, rfl, rfl, rfl⟩
      refine hacked _ (hinc.trans (aside_cleanup _ _)) ?_
      simp only [tsmCleanupRetransQueu]
      repeat' split
      all_goals exact hlive
    · exact hacked _ (Aside.refl _) hlive

/-- The FIN bit in `TS_FIN_WAIT_I`. -/
theorem finWaitIFin_mid
    (ours : Bool)
    (h : Mid peer consumed c)
    (hlive : c.tcb.inHtable = true)
    (hphase : phase c.tcb.state = .reading)
    (hfrom : FromPeer peer pcb)
    (hnear : pcb.flags.fin = true →
      peer.accepted.length < (consumed ++ consumedIn c.out).length + 2 ^ 31) :
    Mid peer consumed (finWaitIFin env pcb ours c) := by
  have hcancel : ∀ c, Aside c (c.onTcb tcpTimerSlowCancel) :=
    fun c => aside_onTcb rfl rfl ⟨rfl, rfl, rfl, rfl, rfl⟩
  unfold finWaitIFin
  split
  · have hstep := (h.stepOver hlive hphase).aside (aside_ack _)
    have hphase' : phase (finWaitIStepOverFin c).tcb.state = .reading := by
      unfold finWaitIStepOverFin
      split
      · exact hphase
      · exact hphase
    simp only
    split
    · exact hstep.aside ((hcancel _).trans (aside_enterFinWaitII fun _ => hphase'))
    · exact hstep
  · rename_i hfin
    have hfin : pcb.flags.fin = true := by simpa using hfin
    split
    · exact h.remember hphase hfrom hfin (hnear hfin)
    · rename_i hnext
      have hpassed := (not_not.1 hnext).trans (hfrom.finNumber hfin)
      have hack : Aside (consumeFin c) ((consumeFin c).tcpSendAckPkt.onTcb tcpTimerSlowCancel) :=
        (aside_ack _).trans (hcancel _)
      simp only
      split
      · exact h.finTaken hlive hphase (hack.ends (ends_enterTimeWait env.cfg _)) (hfrom.fin hfin).1
          (hnear hfin) hpassed
      · exact h.finTaken hlive hphase (hack.ends (ends_enterClosing env.cfg _)) (hfrom.fin hfin).1
          (hnear hfin) hpassed

theorem finWaitI_mid
    (h : Mid peer consumed (Tsm.start tcb))
    (hlive : tcb.inHtable = true)
    (hstate : tcb.state = .finWaitI)
    (hfrom : FromPeer peer pcb)
    (htimely : Timely peer.accepted consumed tcb pcb env.answer) :
    Mid peer consumed (finWaitISegment env pcb (Tsm.start tcb)) := by
  have hphase : phase tcb.state = .reading := by
    rw [hstate]
    rfl
  have hcancel : Aside (Tsm.start tcb) ((Tsm.start tcb).onTcb tcpTimerSlowCancel) :=
    aside_onTcb rfl rfl ⟨rfl, rfl, rfl, rfl, rfl⟩
  refine segmentPrologue_cases (P := Mid peer consumed) h (h.aside (aside_ack _))
    (fun _ => h.aside (hcancel.trans ((aside_rstReceived _).trans (aside_enterClosed _))))
    (fun _ => h.aside (hcancel.trans (aside_enterClosed _))) fun hreach => ?_
  refine ackProcessing_elim (P := Mid peer consumed) (fun _ => h.aside (aside_ackArrived _ _ _))
    fun _ => ?_
  have hrest : ∀ ours c, Aside (Tsm.start tcb) c → c.tcb.inHtable = true →
      Mid peer consumed (finWaitIFin env pcb ours (receiveText env pcb c)) := by
    intro ours c ha hlivec
    obtain ⟨htext, hlive', hreads, hnone⟩ := mid_text (h.aside ha) ha hlivec hphase hfrom
      htimely hreach (.inl rfl)
    refine finWaitIFin_mid ours htext hlive' hreads hfrom fun hfin => ?_
    rw [hnone (hfrom.fin hfin).2.2.1, consumedIn_of_aside ha, List.append_nil]
    exact htimely.finNear hfrom hfin
  have ha := aside_acked pcb true (Tsm.start tcb)
  have hlive' := (acked_live pcb true (Tsm.start tcb)).trans hlive
  unfold finWaitIText
  split
  · exact hrest true _ (ha.trans (aside_onTcb rfl rfl ⟨rfl, rfl, rfl, rfl, rfl⟩)) hlive'
  · exact hrest false _ ha hlive'

theorem finWaitII_mid
    (h : Mid peer consumed (Tsm.start tcb))
    (hlive : tcb.inHtable = true)
    (hstate : tcb.state = .finWaitII)
    (hfrom : FromPeer peer pcb)
    (htimely : Timely peer.accepted consumed tcb pcb env.answer) :
    Mid peer consumed (finWaitIISegment env pcb (Tsm.start tcb)) := by
  have hphase : phase tcb.state = .reading := by
    rw [hstate]
    rfl
  have hcancel : ∀ c, Aside c (c.onTcb tcpTimerSlowCancel) :=
    fun c => aside_onTcb rfl rfl ⟨rfl, rfl, rfl, rfl, rfl⟩
  refine segmentPrologue_cases (P := Mid peer consumed) h (h.aside (aside_ack _))
    (fun _ => h.aside ((hcancel _).trans ((aside_rstReceived _).trans (aside_enterClosed _))))
    (fun _ => h.aside ((hcancel _).trans (aside_enterClosed _))) fun hreach => ?_
  refine ackProcessing_elim (P := Mid peer consumed) (fun _ => h.aside (aside_ackArrived _ _ _))
    fun _ => ?_
  have ha := aside_acked pcb false (Tsm.start tcb)
  obtain ⟨hpre, hin⟩ := h.start_reads hlive hphase
  obtain ⟨htext, hlive', hreads, hnone⟩ := mid_text (h.aside ha) ha
    ((acked_live pcb false (Tsm.start tcb)).trans hlive) hphase hfrom htimely hreach (.inl rfl)
  unfold finWaitIIText
  simp only
  split
  · exact htext.aside (aside_ack _)
  · rename_i hfin
    have hfin : pcb.flags.fin = true := by simpa using hfin
    have hsame := hnone (hfrom.fin hfin).2.2.1
    have hnext := htimely.finIsNext hfrom hreach hfin (.inr hstate) hpre hin
    refine (htext.aside (hcancel _)).finTaken hlive' hreads
      ((aside_ack _).ends (ends_enterTimeWait env.cfg _)) (hfrom.fin hfin).1 ?_ ?_
    · rw [onTcb_out, hsame, consumedIn_of_aside ha, List.append_nil]
      exact htimely.finNear hfrom hfin
    · rw [onTcb_tcb, hsame]
      exact ha.nxt.trans hnext

theorem lastAck_mid
    (h : Mid peer consumed (Tsm.start tcb)) :
    Mid peer consumed (lastAckSegment pcb (Tsm.start tcb)) := by
  refine segmentPrologue_cases (P := Mid peer consumed) h (h.aside (aside_ack _))
    (fun _ => h.aside ((aside_rstReceived _).trans (aside_enterClosed _)))
    (fun _ => h.aside (aside_enterClosed _)) fun _ => ?_
  split
  · exact h.aside (aside_enterClosed _)
  · exact h

theorem closing_mid
    (h : Mid peer consumed (Tsm.start tcb))
    (hstate : tcb.state = .closing) :
    Mid peer consumed (closingSegment env pcb (Tsm.start tcb)) := by
  refine segmentPrologue_cases (P := Mid peer consumed) h (h.aside (aside_ack _))
    (fun _ => h.aside ((aside_rstReceived _).trans (aside_enterClosed _)))
    (fun _ => h.aside (aside_enterClosed _)) fun _ => ?_
  refine ackProcessing_elim (P := Mid peer consumed) (fun _ => h.aside (aside_ackArrived _ _ _))
    fun _ => ?_
  have ha := aside_acked pcb true (Tsm.start tcb)
  split
  · have hcancel : Aside (acked pcb true (Tsm.start tcb))
        ((acked pcb true (Tsm.start tcb)).onTcb tcpTimerRtoCancel) :=
      aside_onTcb rfl rfl ⟨rfl, rfl, rfl, rfl, rfl⟩
    refine h.ends ((ha.trans hcancel).ends (ends_enterTimeWait env.cfg _)) rfl rfl h.recv.acked
      fun hlive => ?_
    refine h.recv.ended hlive ?_
    change phase tcb.state = .ended
    rw [hstate]
    rfl
  · exact h.aside ha

theorem timeWait_mid
    (h : Mid peer consumed (Tsm.start tcb)) :
    Mid peer consumed (timeWaitSegment env pcb (Tsm.start tcb)) := by
  have hcancel : ∀ c, Aside c (c.onTcb tcpTimerSlowCancel) :=
    fun c => aside_onTcb rfl rfl ⟨rfl, rfl, rfl, rfl, rfl⟩
  unfold timeWaitSegment
  split
  · split
    · exact h
    · exact h.aside (aside_ack _)
  · split
    · exact h.aside ((aside_rstReceived _).trans (aside_enterClosed _))
    · split
      · exact h.aside (aside_enterClosed _)
      · have hack := h.aside (aside_ack _)
        unfold timeWaitRestart
        simp only
        split
        · exact hack.aside ((hcancel _).trans (aside_slowSet env.cfg _ _))
        · exact hack.aside ((aside_emit (o := .asserted) trivial).trans
            ((hcancel _).trans (aside_slowSet env.cfg _ _)))

/-- A part of a transition that takes the number of the peer's SYN and starts to read. -/
structure Connects (pcb : Pcb) (c c' : Tsm) : Prop where
  iss : c'.tcb.snd.iss = c.tcb.snd.iss
  state : phase c'.tcb.state = .reading
  nxt : c'.tcb.rcv.nxt = pcb.sentSeq + 1
  rcvBuf : c'.tcb.rcvBuf = c.tcb.rcvBuf
  finRcvd : c'.tcb.finRcvd = c.tcb.finRcvd
  out : ∃ o, c'.out = c.out ++ o ∧ ∀ x ∈ o, AsideOutput c.tcb.snd.iss (pcb.sentSeq + 1) x

theorem Mid.connects
    {c' : Tsm}
    (h : Mid peer [] c)
    (hc : Connects pcb c c')
    (hbuf : c.tcb.rcvBuf = [])
    (hfin : c.tcb.finRcvd = false)
    (hnone : consumedIn c.out = [])
    (hseq : pcb.sentSeq = 0) :
    Mid peer [] c' := by
  obtain ⟨o, ho, hall⟩ := hc.out
  rw [h.iss] at hall
  have hnone' : consumedIn c'.out = [] := by
    rw [ho, consumedIn_append, consumedIn_aside hall, hnone]
    rfl
  have hone : AckOf peer [] (pcb.sentSeq + 1) := by
    rw [hseq]
    exact ⟨1, rfl, .inl le_rfl⟩
  refine ⟨hc.iss.trans h.iss, fun p hp => ?_, fun p hp => ?_, ?_⟩
  · rw [ho, packets_append, List.mem_append] at hp
    rcases hp with hp | hp
    · exact h.syn p hp
    · exact (packet_aside hall hp).1
  · rw [hnone']
    rw [ho, packets_append, List.mem_append] at hp
    rcases hp with hp | hp
    · have hack := h.acks p hp
      rwa [hnone] at hack
    · rw [(packet_aside hall hp).2]
      exact hone
  · rw [hnone']
    refine ⟨List.nil_prefix, hc.nxt ▸ hone, fun _ hopen => ?_,
      fun _ _ => .inl ⟨?_, fun stream _ => ⟨[], ?_⟩, ?_⟩, fun _ hended => ?_⟩
    · exact absurd (hc.state.symm.trans hopen) (by decide)
    · rw [hc.nxt, hseq]
      rfl
    · rw [hc.rcvBuf, hbuf]
      trivial
    · intro hrcvd
      rw [hc.finRcvd, hfin] at hrcvd
      cases hrcvd
    · exact absurd (hc.state.symm.trans hended) (by decide)

/-- A segment without a SYN is ignored in `TS_SYN_SENT`, or closes. -/
theorem aside_synSent
    (hsyn : pcb.flags.syn = false)
    (c : Tsm) :
    Aside c (synSentSegment env pcb c) := by
  unfold synSentSegment
  split
  · split
    · exact Aside.refl c
    · exact aside_ctrl c _ rfl
  · split
    · exact Aside.refl c
    · split
      · exact aside_prologueReset c
      · rw [hsyn]
        exact Aside.refl c

theorem synSent_mid
    {k : Slack}
    (h : Mid peer consumed (Tsm.start tcb))
    (hinv : SendInv env.cfg k tcb)
    (hlive : tcb.inHtable = true)
    (hstate : tcb.state = .synSent)
    (hfrom : FromPeer peer pcb) :
    Mid peer consumed (synSentSegment env pcb (Tsm.start tcb)) := by
  cases hsyn : pcb.flags.syn with
  | false =>
      exact h.aside (aside_synSent hsyn _)
  | true =>
      obtain ⟨huna, hnxt, -⟩ := hinv.handshake hlive (.inl hstate)
      obtain ⟨hseq, hlen⟩ := hfrom.syn hsyn
      have hopen : phase tcb.state = .opening := by
        rw [hstate]
        rfl
      obtain ⟨hnone, hbuf, hfin⟩ := h.recv.opening hlive hopen
      have hempty : consumed = [] := by
        simpa [Tsm.start, consumedIn] using hnone
      subst hempty
      refine synSentSegment_cases (P := Mid peer []) huna hnxt h (h.aside (aside_ctrl _ _ rfl))
        (fun _ => h.aside (aside_prologueReset _)) (fun _ => ?_) fun _ => ?_
      · have hcross : Connects pcb (Tsm.start tcb) (setState .synRecv
            (((Tsm.start tcb).onTcb (synReceived pcb)).tcpSendCtrlPktUseIss
              { ack := true, syn := true })) := by
          refine ⟨rfl, rfl, rfl, rfl, rfl,
            [.pkt ⟨tcb.snd.iss, pcb.sentSeq + 1, { ack := true, syn := true },
              tcb.rcv.wnd.truncate 16, []⟩, .enter .synRecv], rfl, fun x hx => ?_⟩
          simp only [List.mem_cons, List.not_mem_nil, or_false] at hx
          rcases hx with rfl | rfl
          · exact ⟨fun _ => ⟨rfl, rfl⟩, rfl⟩
          · trivial
        exact (h.connects hcross hbuf hfin rfl hseq).aside
          ((aside_notif _ _).trans (aside_schedule env.cfg _))
      · have hdone : Connects pcb (Tsm.start tcb) (synAckDone env pcb (Tsm.start tcb)) := by
          rw [synAckDone, (receiveText_none hlen).1]
          exact ⟨rfl, rfl, rfl, rfl, rfl, [.notif .sessConnected, .enter .established], rfl,
            by simp [AsideOutput]⟩
        have hmid := h.connects hdone hbuf hfin rfl hseq
        exact ⟨hmid, hmid.aside (aside_ack _)⟩

/-- A segment of the peer, in any state. -/
theorem segment_mid
    {k : Slack}
    (h : Mid peer consumed (Tsm.start tcb))
    (hinv : SendInv env.cfg k tcb)
    (hlive : tcb.inHtable = true)
    (hfrom : FromPeer peer pcb)
    (htimely : Timely peer.accepted consumed tcb pcb env.answer) :
    Mid peer consumed (tsmSegmentArrives env pcb (Tsm.start tcb)) := by
  obtain ⟨hinit, hcloseWait, hclosed⟩ := hinv.resting hlive
  have hstart : (Tsm.start tcb).tcb.state = tcb.state := rfl
  unfold tsmSegmentArrives
  cases hstate : tcb.state with
  | synSent =>
      simp only [hstart, hstate]
      exact synSent_mid h hinv hlive hstate hfrom
  | synRecv =>
      simp only [hstart, hstate]
      exact synRecv_mid h hlive hstate hfrom htimely
  | established =>
      simp only [hstart, hstate]
      exact estab_mid h hlive hstate hfrom htimely
  | finWaitI =>
      simp only [hstart, hstate]
      exact finWaitI_mid h hlive hstate hfrom htimely
  | finWaitII =>
      simp only [hstart, hstate]
      exact finWaitII_mid h hlive hstate hfrom htimely
  | lastAck =>
      simp only [hstart, hstate]
      exact lastAck_mid h
  | closing =>
      simp only [hstart, hstate]
      exact closing_mid h hstate
  | timeWait =>
      simp only [hstart, hstate]
      exact timeWait_mid h
  | listen =>
      simp only [hstart, hstate]
      unfold listenSegment
      split
      · exact h.aside (aside_ctrl _ _ rfl)
      · exact h
  | init =>
      exact absurd hstate hinit
  | closeWait =>
      exact absurd hstate hcloseWait
  | closed =>
      exact absurd hstate hclosed

end Segments

section Steps

variable {cfg : TcpConfig} {peer : History} {tcb : Tcb} {consumed : List UInt8} {i : ConnInput}

/-- A control block that has heard nothing of its peer yet. -/
theorem mid_unconnected
    {c : Tsm}
    (peer : History)
    (hiss : c.tcb.snd.iss = 0)
    (hphase : phase c.tcb.state = .opening)
    (hbuf : c.tcb.rcvBuf = [])
    (hfin : c.tcb.finRcvd = false)
    (hnxt : c.tcb.rcv.nxt = 0)
    (hpackets : packets c.out = [])
    (hnone : consumedIn c.out = []) :
    Mid peer [] c := by
  refine ⟨hiss, fun p hp => ?_, fun p hp => ?_, ?_⟩
  · rw [hpackets] at hp
    cases hp
  · rw [hpackets] at hp
    cases hp
  · rw [hnone]
    refine ⟨List.nil_prefix, ⟨0, hnxt, .inl (by omega)⟩, fun _ _ => ⟨rfl, hbuf, hfin⟩,
      fun _ hreads => ?_, fun _ hended => ?_⟩
    · exact absurd (hphase.symm.trans hreads) (by decide)
    · exact absurd (hphase.symm.trans hended) (by decide)

/-- An active or passive open. -/
theorem opened_mid
    (env : TsmEnv) (active : Bool) (c : Tsm) (peer : History)
    (hout : c.out = []) :
    Mid peer [] (tcpOpenV4Connection env active c) := by
  cases active with
  | true =>
      refine Mid.aside (c := ((tsmInitializeStatemachine env true c).onTcb
          fun tcb => { tcb with inHtable := true }).onTcb fun tcb =>
            { tcb with snd := { tcb.snd with una := tcb.snd.iss, nxt := tcb.snd.iss + 1 } })
        (mid_unconnected peer rfl rfl rfl rfl rfl ?_ ?_) ((aside_ctrlIss _ _).trans
          ((aside_setState (s := .synSent) fun _ => rfl).trans
            ((aside_notif _ _).trans (aside_schedule env.cfg _))))
      all_goals simp [tsmInitializeStatemachine, setState, hout, packets, consumedIn]
  | false =>
      refine Mid.aside (c := (tsmInitializeStatemachine env false c).onTcb
          fun tcb => { tcb with inHtable := true })
        (mid_unconnected peer rfl rfl rfl rfl rfl ?_ ?_)
        ((aside_setState (s := .listen) fun _ => rfl).trans (aside_notif _ _))
      all_goals simp [tsmInitializeStatemachine, setState, hout, packets, consumedIn]

/-- The clone that a listening block makes for the peer's SYN. -/
theorem accepted_mid
    (env : TsmEnv) (peer : History) {syn : Pcb}
    (hseq : syn.sentSeq = 0) :
    Mid peer [] (listenClone env syn (listenerTcb env)) := by
  have hlistener : Mid peer [] (Tsm.start (listenerTcb env)) :=
    mid_unconnected peer rfl rfl rfl rfl rfl rfl rfl
  have hclone : Connects syn (Tsm.start (listenerTcb env)) (setState .synRecv
      (((Tsm.start (synReceived syn { listenerTcb env with inHtable := true })).onTcb
          fun tcb => { tcb with
            snd := { tcb.snd with una := tcb.snd.iss, nxt := tcb.snd.iss + 1 } })
        |>.tcpSendCtrlPktUseIss { syn := true, ack := true })) := by
    refine ⟨rfl, rfl, rfl, rfl, rfl,
      [.pkt ⟨0, syn.sentSeq + 1, { syn := true, ack := true },
        env.cfg.sockopt.tcpoWinSize.truncate 16, []⟩, .enter .synRecv], rfl, fun x hx => ?_⟩
    simp only [List.mem_cons, List.not_mem_nil, or_false] at hx
    rcases hx with rfl | rfl
    · exact ⟨fun _ => ⟨rfl, rfl⟩, rfl⟩
    · trivial
  exact (hlistener.connects hclone rfl rfl rfl hseq).aside
    ((aside_notif _ _).trans (aside_schedule env.cfg _))

/-- Every input of a control block, with the segments of its peer. -/
theorem mid_connStep
    {k : Slack}
    (hiss : tcb.snd.iss = 0)
    (hrecv : RecvOk peer tcb consumed)
    (hinv : SendInv cfg k tcb)
    (hlegal : ConnLegal tcb i)
    (hfrom : ∀ pcb, i.event = .segment pcb ∨ i.event = .accept pcb → FromPeer peer pcb)
    (htimely : ∀ pcb, i.event = .segment pcb →
      Timely peer.accepted consumed tcb pcb i.answer) :
    Mid peer (if opens i.event then [] else consumed) (connStep cfg tcb i) := by
  have hstart : Mid peer consumed (Tsm.start tcb) := .start hiss hrecv
  unfold connStep
  unfold ConnLegal at hlegal
  cases hevent : i.event with
  | «open» active =>
      exact opened_mid (i.env cfg) active _ peer rfl
  | accept syn =>
      simp only [hevent] at hlegal
      exact accepted_mid (i.env cfg) peer ((hfrom syn (.inr hevent)).syn hlegal.2).1
  | send data =>
      exact hstart.aside (aside_tsmSend (i.env cfg) _ data)
  | close =>
      exact hstart.aside (aside_tsmClose cfg _)
  | segment pcb =>
      simp only [hevent] at hlegal
      exact segment_mid hstart hinv hlegal (hfrom pcb (.inl hevent)) (htimely pcb hevent)
  | rtoTimer =>
      exact hstart.aside (aside_rtoTimer (i.env cfg) _)
  | slowTimer =>
      exact hstart.aside (aside_slowTimer (i.env cfg) _)
  | purge =>
      exact hstart.aside (aside_silentClose _)

end Steps

end StreamReading
end Warp17
