import Warp17.GaugeTransitions
import Warp17.StateCensus

/-!
# The gauges of a pool

The two gauges of an interface follow the edges of all its control blocks.  While every step
keeps its edges (`EdgesKept`), and a session is closed only when it counts for nothing, they
are the numbers of sessions with a full send window and with out-of-order data.  A listening
control block has no window and is no session.

**Results**
- `gaugeSteps_balanced`: the gauges follow the flags of one control block.
- `gauges_ok`: in every run whose steps keep the edges, the gauges are the numbers of sessions.
- `closeWhileFull_drifts`: a close with a full window leaves the gauge one too high.
-/

namespace Warp17
namespace GaugeTotals

open GuardedRuns SequenceComparison MbufChains ControlBlock SendQueue TcpStateMachine
open TransitionPaths ConnectionRuns SendInvariants StateTraces ControlBlockPool Tallies
open SessionGauges GaugeTransitions
open StateCensus (plainInput)

universe u

section Gauges

/-- `tsms_snd_win_full` and `tsms_missing_seq`; a decrement of zero is remembered. -/
structure Gauges where
  sndWinFull : Int
  missingSeq : Int
  belowZero : Bool
deriving DecidableEq, Repr

/-- The effect of one output. -/
def gaugeStep (g : Gauges) : TcpOutput → Gauges
  | .notif .sessWinUnavail => { g with sndWinFull := g.sndWinFull + 1 }
  | .notif .sessWinAvail =>
      { g with
        sndWinFull := g.sndWinFull - 1
        belowZero := g.belowZero || decide (g.sndWinFull ≤ 0) }
  | .missingSeq true => { g with missingSeq := g.missingSeq + 1 }
  | .missingSeq false =>
      { g with
        missingSeq := g.missingSeq - 1
        belowZero := g.belowZero || decide (g.missingSeq ≤ 0) }
  | .notif _ | .pkt _ | .deliver _ | .enter _ | .asserted => g

/-- The effects of a transition. -/
def gaugeSteps (g : Gauges) (out : List TcpOutput) : Gauges :=
  out.foldl gaugeStep g

/-- One, if it is counted. -/
def unit (counted : Bool) : Int :=
  if counted then 1 else 0

/-- The gauges are those of the other sessions, and one more for each flag. -/
structure Balanced (g : Gauges) (full missing : Int) (f : Flags) : Prop where
  sndWinFull : g.sndWinFull = full + unit f.winFull
  missingSeq : g.missingSeq = missing + unit f.missing
  belowZero : g.belowZero = false

variable {g : Gauges} {full missing : Int} {f f' : Flags}

theorem gaugeStep_balanced
    {o : TcpOutput}
    (h : Balanced g full missing f)
    (hfull : 0 ≤ full)
    (hmissing : 0 ≤ missing)
    (hstep : flagStep f o = some f') :
    Balanced (gaugeStep g o) full missing f' := by
  obtain ⟨hwin, hseq, hbelow⟩ := h
  have hsame : gaugeStep g o = g → f' = f → Balanced (gaugeStep g o) full missing f' := by
    intro hg hf
    rw [hg, hf]
    exact ⟨hwin, hseq, hbelow⟩
  cases o with
  | notif n =>
      cases n with
      | sessWinUnavail =>
          simp only [flagStep] at hstep
          split at hstep
          · cases hstep
          · rename_i hno
            cases hstep
            simp only [unit, hno, if_false, Bool.false_eq_true] at hwin
            exact ⟨by simp only [gaugeStep, unit, if_true]; omega, hseq, hbelow⟩
      | sessWinAvail =>
          simp only [flagStep] at hstep
          split at hstep
          · rename_i hyes
            cases hstep
            simp only [unit, hyes, if_true] at hwin
            refine ⟨?_, hseq, ?_⟩
            · simp only [gaugeStep, unit, Bool.false_eq_true, if_false]
              omega
            · simp only [gaugeStep, hbelow, Bool.false_or, decide_eq_false_iff_not]
              omega
          · cases hstep
      | tmrFired | sessConnecting | sessConnected | sessConnectedImm | sessListen
      | sessSrvConnected | sessClosing | sessClosed | appSendStart | appSendStop | appClose =>
          exact hsame rfl (Option.some.inj hstep).symm
  | missingSeq more =>
      cases more with
      | true =>
          simp only [flagStep] at hstep
          split at hstep
          · cases hstep
          · rename_i hno
            cases hstep
            simp only [unit, hno, if_false, Bool.false_eq_true] at hseq
            exact ⟨hwin, by simp only [gaugeStep, unit, if_true]; omega, hbelow⟩
      | false =>
          simp only [flagStep] at hstep
          split at hstep
          · rename_i hyes
            cases hstep
            simp only [unit, hyes, if_true] at hseq
            refine ⟨hwin, ?_, ?_⟩
            · simp only [gaugeStep, unit, Bool.false_eq_true, if_false]
              omega
            · simp only [gaugeStep, hbelow, Bool.false_or, decide_eq_false_iff_not]
              omega
          · cases hstep
  | pkt _ | deliver _ | enter _ | asserted =>
      exact hsame rfl (Option.some.inj hstep).symm

/-- The gauges follow the flags of the control block that a transition is about. -/
theorem gaugeSteps_balanced
    {out : List TcpOutput}
    (h : Balanced g full missing f)
    (hfull : 0 ≤ full)
    (hmissing : 0 ≤ missing)
    (hsteps : flagSteps f out = some f') :
    Balanced (gaugeSteps g out) full missing f' := by
  induction out generalizing g f with
  | nil =>
      cases hsteps
      exact h
  | cons o out ih =>
      rw [flagSteps, List.foldlM_cons, Option.bind_eq_bind, Option.bind_eq_some_iff] at hsteps
      obtain ⟨f₁, hstep, hrest⟩ := hsteps
      exact ih (gaugeStep_balanced h hfull hmissing hstep) hrest

end Gauges

section Sessions

/-- A connection, or an attempt at one, that can be found. -/
def Session (tcb : Tcb) : Prop :=
  tcb.inHtable = true ∧ tcb.state ≠ .listen

instance (tcb : Tcb) : Decidable (Session tcb) :=
  inferInstanceAs (Decidable (_ ∧ _))

/-- A session whose send window is full. -/
def FullSession (tcb : Tcb) : Prop :=
  Session tcb ∧ tcpSndWinFull tcb = true

instance : DecidablePred FullSession :=
  fun _ => inferInstanceAs (Decidable (_ ∧ _))

/-- A session with out-of-order data. -/
def MissingSession (tcb : Tcb) : Prop :=
  Session tcb ∧ tcb.rcvBuf ≠ []

instance : DecidablePred MissingSession :=
  fun _ => inferInstanceAs (Decidable (_ ∧ _))

/-- What a control block counts for. -/
def counted (tcb : Tcb) : Flags :=
  if Session tcb then flagsOf tcb else { winFull := false, missing := false }

theorem weight_full
    (tcb : Tcb) :
    weight FullSession tcb = unit (counted tcb).winFull := by
  unfold weight FullSession counted unit
  by_cases hs : Session tcb
  · simp [hs, flagsOf]
  · simp [hs]

theorem weight_missing
    (tcb : Tcb) :
    weight MissingSession tcb = unit (counted tcb).missing := by
  unfold weight MissingSession counted unit
  by_cases hs : Session tcb
  · by_cases hbuf : tcb.rcvBuf = []
    · simp [hs, flagsOf, hbuf]
    · simp [hs, flagsOf, hbuf]
  · simp [hs]

/-- A session is closed when it counts for nothing. -/
def leaveIdle : Leave :=
  fun f => !f.winFull && !f.missing

/-- The flags of a control block that was closed. -/
theorem counted_of_ended
    {f : Flags} {c : Tsm}
    (h : Ended leaveIdle f c) :
    flagSteps f c.out = some (counted c.tcb) := by
  cases h with
  | rests hlive hlisten hflags =>
      rw [counted, if_pos ⟨hlive, hlisten⟩]
      exact hflags
  | @closed g hdead hleave hflags =>
      have hnone : counted c.tcb = { winFull := false, missing := false } := by
        rw [counted, if_neg fun hs => by rw [hs.1] at hdead; cases hdead]
      have hg : g = { winFull := false, missing := false } := by
        cases g
        simpa [leaveIdle] using hleave
      rw [hflags, hnone, hg]

end Sessions

section Runs

variable {ι : Type u}

/-- A pool, and the gauges of its interface. -/
structure Gauged (ι : Type u) where
  pool : Pool ι
  gauges : Gauges

/-- Before the first open. -/
def Gauged.blank (ι : Type u) : Gauged ι :=
  { pool := Pool.blank ι
    gauges := { sndWinFull := 0, missingSeq := 0, belowZero := false } }

/-- One input, with its effect on the gauges. -/
def gaugedStep [DecidableEq ι] (x : Gauged ι) (i : PoolInput ι) : Gauged ι :=
  { pool := poolStep x.pool i
    gauges := gaugeSteps x.gauges (transition x.pool i).out }

/-- What the gauges are for. -/
structure GaugesOk [Fintype ι] (x : Gauged ι) : Prop where
  sndWinFull :
    x.gauges.sndWinFull =
      ((Finset.univ.filter fun j => FullSession (x.pool.tcb j)).card : Int)
  missingSeq :
    x.gauges.missingSeq =
      ((Finset.univ.filter fun j => MissingSession (x.pool.tcb j)).card : Int)
  notBelowZero : x.gauges.belowZero = false

/-- The step keeps the edges of its session. -/
def KeepsGauges (x : Gauged ι) (i : PoolInput ι) : Prop :=
  PoolLegal x.pool i ∧
    (Session (x.pool.tcb i.who) →
      EdgesKept leaveIdle (poolCfg x.pool i) (x.pool.tcb i.who) i.input)

instance (x : Gauged ι) (i : PoolInput ι) : Decidable (KeepsGauges x i) :=
  inferInstanceAs (Decidable (_ ∧ _))

/-- The edges of the transition lead from what is counted to what is counted. -/
theorem transition_flags
    {x : Gauged ι} {i : PoolInput ι}
    (hpool : PoolInv x.pool)
    (hkeeps : KeepsGauges x i) :
    flagSteps (counted (x.pool.tcb i.who)) (transition x.pool i).out =
      some (counted (transition x.pool i).tcb) := by
  obtain ⟨hlegal, hkept⟩ := hkeeps
  have hwho := hpool.who hlegal
  have hcfg := poolCfg_ok hpool hlegal
  rw [transition_eq hpool hlegal]
  by_cases hsession : Session (x.pool.tcb i.who)
  · rw [counted, if_pos hsession]
    exact counted_of_ended (connStep_ended hcfg hwho hlegal.1 hsession.1 hsession.2
      (hkept hsession))
  · rw [counted, if_neg hsession]
    cases hopens : opens i.input.event with
    | true =>
        obtain ⟨hflags, hidle⟩ := connStep_opens (poolCfg x.pool i)
          (x.pool.tcb i.who) hopens
        rw [hflags, counted]
        split
        · rename_i hs
          rcases hidle with hlisten | hidle
          · exact absurd hlisten hs.2
          · rw [hidle]
        · rfl
    | false =>
        have hlive : (x.pool.tcb i.who).inHtable = true := by
          cases hgoes : goesOn i.input.event with
          | true =>
              exact live_of_goesOn hwho hlegal.1 hgoes
          | false =>
              have hconn := hlegal.1
              unfold ConnLegal at hconn
              cases hevent : i.input.event with
              | purge =>
                  simpa only [hevent] using hconn
              | «open» _ | accept _ =>
                  simp [opens, hevent] at hopens
              | send _ | close | segment _ | rtoTimer | slowTimer =>
                  simp [goesOn, hevent] at hgoes
        have hlisten : (x.pool.tcb i.who).state = .listen := by
          by_contra hne
          exact hsession ⟨hlive, hne⟩
        obtain ⟨hno, hafter⟩ := connStep_listen (poolCfg x.pool i) hlisten hopens
        have hidle : ¬ Session (connStep (poolCfg x.pool i) (x.pool.tcb i.who) i.input).tcb := by
          rintro ⟨hlive', hne⟩
          rcases hafter with hdead | hlisten'
          · rw [hdead] at hlive'
            cases hlive'
          · exact hne hlisten'
        rw [hno.flagSteps_eq, counted, if_neg hidle]
        rfl

variable [Fintype ι]

/-- The invariant of a run. -/
structure GaugesInv (x : Gauged ι) : Prop where
  pool : PoolInv x.pool
  sndWinFull : x.gauges.sndWinFull = tally FullSession x.pool.tcb
  missingSeq : x.gauges.missingSeq = tally MissingSession x.pool.tcb
  belowZero : x.gauges.belowZero = false

theorem gaugesInv_blank :
    GaugesInv (Gauged.blank ι) := by
  have hnone : ∀ j : ι, ¬ Session ((Gauged.blank ι).pool.tcb j) := by
    rintro j ⟨hlive, -⟩
    cases hlive
  refine ⟨poolInv_blank, ?_, ?_, rfl⟩
  · exact (tally_zero FullSession _ fun j h => hnone j h.1).symm
  · exact (tally_zero MissingSession _ fun j h => hnone j h.1).symm

theorem GaugesInv.gaugesOk
    {x : Gauged ι}
    (h : GaugesInv x) :
    GaugesOk x :=
  ⟨h.sndWinFull.trans (tally_eq_card FullSession x.pool.tcb),
    h.missingSeq.trans (tally_eq_card MissingSession x.pool.tcb), h.belowZero⟩

/-- Before the step, the gauges are those of the others and of the session itself. -/
theorem GaugesInv.balanced
    {x : Gauged ι}
    (h : GaugesInv x) (who : ι) :
    Balanced x.gauges
      (tally FullSession x.pool.tcb - weight FullSession (x.pool.tcb who))
      (tally MissingSession x.pool.tcb - weight MissingSession (x.pool.tcb who))
      (counted (x.pool.tcb who)) := by
  refine ⟨?_, ?_, h.belowZero⟩
  · rw [h.sndWinFull, weight_full]
    omega
  · rw [h.missingSeq, weight_missing]
    omega

variable [DecidableEq ι]

theorem gaugesInv_step
    {x : Gauged ι} {i : PoolInput ι}
    (h : GaugesInv x)
    (hkeeps : KeepsGauges x i) :
    GaugesInv (gaugedStep x i) := by
  have hfull := weight_le_tally FullSession x.pool.tcb i.who
  have hmissing := weight_le_tally MissingSession x.pool.tcb i.who
  have hafter := gaugeSteps_balanced (h.balanced i.who) (by omega) (by omega)
    (transition_flags h.pool hkeeps)
  refine ⟨poolInv_step h.pool hkeeps.1, ?_, ?_, hafter.belowZero⟩
  · simp only [gaugedStep, poolStep]
    rw [tally_update, hafter.sndWinFull, weight_full (transition x.pool i).tcb]
  · simp only [gaugedStep, poolStep]
    rw [tally_update, hafter.missingSeq, weight_missing (transition x.pool i).tcb]

/--
Over any number of control blocks the gauges are the numbers of sessions with a full send
window and with out-of-order data, as long as every change of the window, of the numbers in
flight and of the session's life that is not counted leaves the flags of the session as they
are.
-/
theorem gauges_ok
    {is : List (PoolInput ι)}
    (hrun : Guarded gaugedStep KeepsGauges (Gauged.blank ι) is) :
    GaugesOk (run gaugedStep (Gauged.blank ι) is) :=
  (run_invariant GaugesInv (fun _ _ => gaugesInv_step) gaugesInv_blank hrun).gaugesOk

end Runs

section Inputs

/-- A connection whose peer has room for four bytes sends four bytes. -/
def fullRun : List (PoolInput Unit) :=
  [plainInput () (.open true),
    plainInput ()
      (.segment { plainPcb 100 1 { syn := true, ack := true } [] with rxWin := 4 }),
    plainInput () (plainSend 1 [1, 2, 3, 4])]

/-- The window is filled, opened by an acknowledgement, and the connection is closed. -/
def openedRun : List (PoolInput Unit) :=
  fullRun ++
    [plainInput () (.segment (plainPcb 101 5 { ack := true } [])),
      plainInput () .close]

theorem gauges_ok_opened :
    GaugesOk (run gaugedStep (Gauged.blank Unit) openedRun) :=
  gauges_ok (by decide +kernel)

/-- The connection is closed while its window is full. -/
def closeFullRun : List (PoolInput Unit) :=
  fullRun ++ [plainInput () .close]

/-- A connection is purged while it waits for a byte. -/
def purgeMissingRun : List (PoolInput Unit) :=
  [plainInput () (.open true),
    plainInput () (.segment (plainPcb 100 1 { syn := true, ack := true } [])),
    plainInput () (.segment (plainPcb 102 1 { ack := true } [7])),
    plainInput () .purge]

/-- The FIN makes a full window one that is not; a purge drops what was out of order. -/
theorem closeWhileFull_drifts :
    (Guarded gaugedStep (fun x i => PoolLegal x.pool i) (Gauged.blank Unit) closeFullRun ∧
      ¬ GaugesOk (run gaugedStep (Gauged.blank Unit) closeFullRun)) ∧
    (Guarded gaugedStep (fun x i => PoolLegal x.pool i) (Gauged.blank Unit) purgeMissingRun ∧
      ¬ GaugesOk (run gaugedStep (Gauged.blank Unit) purgeMissingRun)) := by
  refine ⟨⟨by decide +kernel, fun h => ?_⟩, ⟨by decide +kernel, fun h => ?_⟩⟩
  · have hcount := h.sndWinFull
    revert hcount
    decide +kernel
  · have hcount := h.missingSeq
    revert hcount
    decide +kernel

end Inputs

end GaugeTotals
end Warp17
