import Warp17.ControlBlockPool
import Warp17.Tallies

/-!
# The census of states

`tsms_tcb_states[]` has a counter for each state.  Entering a state counts it and discounts
the one before, except that `TS_LISTEN` is never discounted, because the clone of a listening
control block begins in it; terminating the state machine discounts the last state.

A transition moves one control block along the path of the states it enters, so the counters
follow as long as no control block leaves `TS_LISTEN` and none enters a state after it was
terminated.

**Results**
- `countEnters_balanced`: the counters follow a path.
- `census_ok`: they are the numbers of live control blocks in every run whose steps keep the
  path.
- `listenerClose_miscounts`: a listening control block that is closed stays counted.
-/

namespace Warp17
namespace StateCensus

open GuardedRuns MbufChains ControlBlock SendQueue TcpStateMachine TransitionPaths ConnectionRuns
open SendInvariants StateTraces ControlBlockPool Tallies

universe u

section Counters

/-- `tsms_tcb_states[]`; a decrement of zero and a failed assertion are remembered. -/
structure Census where
  tcbStates : TcpState → Int
  belowZero : Bool
  assertFailed : Bool

/-- `INC_STATS(stats, tsms_tcb_states[s])`. -/
def incStats (s : TcpState) (n : Census) : Census :=
  { n with tcbStates := Function.update n.tcbStates s (n.tcbStates s + 1) }

/-- `DEC_STATS(stats, tsms_tcb_states[s])`. -/
def decStats (s : TcpState) (n : Census) : Census :=
  { n with
    tcbStates := Function.update n.tcbStates s (n.tcbStates s - 1)
    belowZero := n.belowZero || decide (n.tcbStates s = 0) }

/-- The counters in `tsm_enter_state()`; `cur` is the state before. -/
def tsmEnterState (cur s : TcpState) (n : Census) : Census :=
  incStats s (if s ≠ cur ∧ cur ≠ .listen then decStats cur n else n)

/-- `tsm_terminate_statemachine()`. -/
def tsmTerminateStatemachine (s : TcpState) (n : Census) : Census :=
  if s = .init then
    n
  else
    decStats s { n with assertFailed := n.assertFailed || decide (n.tcbStates s = 0) }

/-- The counters along the states a transition enters. -/
def countEnters : TcpState → List TcpState → Census → Census
  | _, [], n => n
  | cur, s :: es, n =>
      let n := tsmEnterState cur s n
      -- entering `TS_CLOSED` terminates the state machine
      countEnters s es (if s = .closed then tsmTerminateStatemachine .closed n else n)

end Counters

section Balance

/-- Where a control block is counted. -/
def place (tcb : Tcb) : Option TcpState :=
  if tcb.inHtable then some tcb.state else none

/-- The counters are those of the other control blocks, and one more for this one. -/
structure Balanced (n : Census) (others : TcpState → Int) (at? : Option TcpState) : Prop where
  counts : ∀ s, n.tcbStates s = others s + if at? = some s then 1 else 0
  belowZero : n.belowZero = false
  assertFailed : n.assertFailed = false

variable {n : Census} {others : TcpState → Int} {cur : TcpState}

/-- The counter of a state is positive while a control block is counted in it. -/
theorem Balanced.nonzero
    (h : Balanced n others (some cur))
    (hothers : 0 ≤ others cur) :
    n.tcbStates cur ≠ 0 := by
  have hcur := h.counts cur
  rw [if_pos rfl] at hcur
  omega

/-- A control block that was not counted before. -/
theorem Balanced.appear
    {s : TcpState}
    (h : Balanced n others none) :
    Balanced (incStats s n) others (some s) := by
  refine ⟨fun t => ?_, h.belowZero, h.assertFailed⟩
  have ht := h.counts t
  rw [if_neg (by simp)] at ht
  dsimp only [incStats]
  rcases eq_or_ne t s with rfl | hts
  · rw [Function.update_self, if_pos rfl]
    omega
  · rw [Function.update_of_ne hts, if_neg (by simpa using Ne.symm hts), ht]

/-- A control block that is not counted any more. -/
theorem Balanced.leave
    (h : Balanced n others (some cur))
    (hothers : 0 ≤ others cur) :
    Balanced (decStats cur n) others none := by
  have hnonzero := h.nonzero hothers
  refine ⟨fun t => ?_, by simp [decStats, h.belowZero, hnonzero], h.assertFailed⟩
  have ht := h.counts t
  rw [if_neg (by simp)]
  dsimp only [decStats]
  rcases eq_or_ne t cur with rfl | htc
  · rw [if_pos rfl] at ht
    rw [Function.update_self]
    omega
  · rw [if_neg (by simpa using Ne.symm htc)] at ht
    rw [Function.update_of_ne htc, ht]

theorem Balanced.enter
    {s : TcpState}
    (h : Balanced n others (some cur))
    (hothers : 0 ≤ others cur)
    (hlisten : cur ≠ .listen)
    (hne : s ≠ cur) :
    Balanced (tsmEnterState cur s n) others (some s) := by
  rw [tsmEnterState, if_pos ⟨hne, hlisten⟩]
  exact (h.leave hothers).appear

theorem Balanced.terminate
    (h : Balanced n others (some cur))
    (hothers : 0 ≤ others cur)
    (hinit : cur ≠ .init) :
    Balanced (tsmTerminateStatemachine cur n) others none := by
  have hassert : (n.assertFailed || decide (n.tcbStates cur = 0)) = false := by
    simp [h.assertFailed, h.nonzero hothers]
  rw [tsmTerminateStatemachine, if_neg hinit, hassert]
  exact Balanced.leave ⟨h.counts, h.belowZero, rfl⟩ hothers

/-- The counters follow a path. -/
theorem countEnters_balanced
    {es : List TcpState}
    (h : Balanced n others (some cur))
    (hothers : ∀ s, 0 ≤ others s)
    (hclosed : cur ≠ .closed)
    (hpath : EntersOk cur es) :
    Balanced (countEnters cur es n) others
      (if lastState cur es = .closed then none else some (lastState cur es)) := by
  induction es generalizing cur n with
  | nil =>
      rw [lastState, if_neg hclosed]
      exact h
  | cons s es ih =>
      obtain ⟨hlisten, -, hne, -, hrest⟩ := hpath
      have hs := h.enter (hothers cur) hlisten hne
      simp only [countEnters, lastState]
      rcases eq_or_ne s .closed with rfl | hsc
      · cases es with
        | nil =>
            simp only [countEnters, lastState, if_true]
            exact hs.terminate (hothers _) (by simp)
        | cons e es =>
            exact absurd rfl hrest.2.1
      · rw [if_neg hsc]
        exact ih hs hsc hrest

end Balance

section Runs

variable {ι : Type u}

/-- The counters after the transition of one input. -/
def countTransition (p : Pool ι) (i : PoolInput ι) (n : Census) : Census :=
  let es := enters (transition p i).out
  match i.input.event with
  -- `tsm_initialize_minimal_statemachine()` sets the state before it is entered
  | .open _ => countEnters .init es n
  -- a clone has the state of the listening control block
  | .accept _ => countEnters .listen es n
  | .purge => tsmTerminateStatemachine (p.tcb i.who).state n
  | .send _ | .close | .segment _ | .rtoTimer | .slowTimer =>
      countEnters (p.tcb i.who).state es n

/-- A pool, and the counters of its interface. -/
structure Counted (ι : Type u) where
  pool : Pool ι
  census : Census

/-- Before the first open. -/
def Counted.blank (ι : Type u) : Counted ι :=
  { pool := Pool.blank ι
    census := { tcbStates := fun _ => 0, belowZero := false, assertFailed := false } }

/-- One input, with its effect on the counters. -/
def censusStep [DecidableEq ι] (x : Counted ι) (i : PoolInput ι) : Counted ι :=
  { pool := poolStep x.pool i
    census := countTransition x.pool i x.census }

/-- A live control block in a state. -/
def InState (s : TcpState) (tcb : Tcb) : Prop :=
  tcb.inHtable = true ∧ tcb.state = s

instance (s : TcpState) : DecidablePred (InState s) :=
  fun _ => inferInstanceAs (Decidable (_ ∧ _))

/-- What the counters are for. -/
structure CensusOk [Fintype ι] (x : Counted ι) : Prop where
  counts :
    ∀ s, s ≠ .init →
      x.census.tcbStates s = ((Finset.univ.filter fun j => InState s (x.pool.tcb j)).card : Int)
  notBelowZero : x.census.belowZero = false
  assertHolds : x.census.assertFailed = false

/-- The step keeps its control block on a path. -/
def KeepsCensus (x : Counted ι) (i : PoolInput ι) : Prop :=
  PoolLegal x.pool i ∧ ¬ LeavesPath (x.pool.tcb i.who) i.input

instance (x : Counted ι) (i : PoolInput ι) : Decidable (KeepsCensus x i) :=
  inferInstanceAs (Decidable (_ ∧ _))

theorem weight_place
    (s : TcpState) (tcb : Tcb) :
    weight (InState s) tcb = if place tcb = some s then 1 else 0 := by
  unfold weight InState place
  by_cases hlive : tcb.inHtable = true
  · simp [hlive]
  · simp [hlive]

variable [Fintype ι]

/-- The invariant of a run. -/
structure CensusInv (x : Counted ι) : Prop where
  pool : PoolInv x.pool
  counts : ∀ s, x.census.tcbStates s = tally (InState s) x.pool.tcb
  belowZero : x.census.belowZero = false
  assertFailed : x.census.assertFailed = false

/-- The live control blocks in a state, without the one that an input concerns. -/
def others (p : Pool ι) (who : ι) (s : TcpState) : Int :=
  tally (InState s) p.tcb - weight (InState s) (p.tcb who)

/-- Before the step, the control block is counted where it is. -/
theorem CensusInv.balanced
    {x : Counted ι}
    (h : CensusInv x) (who : ι) :
    Balanced x.census (others x.pool who) (place (x.pool.tcb who)) := by
  refine ⟨fun s => ?_, h.belowZero, h.assertFailed⟩
  rw [h.counts s, others, weight_place]
  omega

theorem censusInv_blank :
    CensusInv (Counted.blank ι) := by
  refine ⟨poolInv_blank, fun s => ?_, rfl, rfl⟩
  have hnone : ∀ j : ι, ¬ InState s ((Counted.blank ι).pool.tcb j) := by
    rintro j ⟨hlive, -⟩
    cases hlive
  exact (tally_zero (InState s) _ hnone).symm

theorem CensusInv.censusOk
    {x : Counted ι}
    (h : CensusInv x) :
    CensusOk x :=
  ⟨fun s _ => (h.counts s).trans (tally_eq_card (InState s) x.pool.tcb), h.belowZero,
    h.assertFailed⟩

variable [DecidableEq ι]

theorem others_nonneg
    (p : Pool ι) (who : ι) (s : TcpState) :
    0 ≤ others p who s := by
  have hle := weight_le_tally (InState s) p.tcb who
  rw [others]
  omega

/-- After the step, it is counted where it has got to. -/
theorem censusInv_of_balanced
    {x : Counted ι} {i : PoolInput ι}
    (hpool : PoolInv (poolStep x.pool i))
    (h : Balanced (countTransition x.pool i x.census) (others x.pool i.who)
      (place (transition x.pool i).tcb)) :
    CensusInv (censusStep x i) := by
  refine ⟨hpool, fun s => ?_, h.belowZero, h.assertFailed⟩
  have hs := h.counts s
  rw [← weight_place, others] at hs
  simp only [censusStep, poolStep]
  rw [tally_update, hs]

theorem place_goesOn
    {c : Tsm} {cur : TcpState}
    (h : Traced [] cur c) :
    place c.tcb =
      if lastState cur (enters c.out) = .closed then none
      else some (lastState cur (enters c.out)) := by
  obtain ⟨o, ho, -, hlast⟩ := h.path
  rw [List.nil_append] at ho
  rw [place, h.live, ho, ← hlast]
  by_cases hclosed : c.tcb.state = .closed <;> simp [hclosed]

/-- An open counts its control block in the state it gets to. -/
theorem opened_balanced
    {n : Census} {others : TcpState → Int}
    (env : TsmEnv) (active : Bool) (tcb : Tcb)
    (h : Balanced n others none)
    (hothers : ∀ s, 0 ≤ others s) :
    Balanced
      (countEnters .init (enters (tcpOpenV4Connection env active (Tsm.start tcb)).out) n) others
      (place (tcpOpenV4Connection env active (Tsm.start tcb)).tcb) := by
  have hinit : Balanced (tsmEnterState .init .init n) others (some .init) := h.appear
  cases active with
  | true =>
      have hplace : place (tcpOpenV4Connection env true (Tsm.start tcb)).tcb = some .synSent := by
        obtain ⟨tcb', heq, hsyn⟩ := openedActive_eq env (Tsm.start tcb)
        rw [heq, tsmScheduleRetransmission_eq]
        simp [place, hsyn.live, hsyn.state]
      rw [hplace]
      exact hinit.enter (hothers .init) (by simp) (by simp)
  | false =>
      exact hinit.enter (hothers .init) (by simp) (by simp)

/-- So does the clone of a listening control block. -/
theorem accepted_balanced
    {n : Census} {others : TcpState → Int}
    (env : TsmEnv) (syn : Pcb)
    (h : Balanced n others none) :
    Balanced
      (countEnters .listen (enters (listenClone env syn (listenerTcb env)).out) n) others
      (place (listenClone env syn (listenerTcb env)).tcb) := by
  have hplace : place (listenClone env syn (listenerTcb env)).tcb = some .synRecv := by
    obtain ⟨tcb', heq, hsyn⟩ := accepted_eq env syn
    rw [heq, tsmScheduleRetransmission_eq]
    simp [place, hsyn.live, hsyn.state]
  rw [hplace]
  exact h.appear

theorem censusInv_step
    {x : Counted ι} {i : PoolInput ι}
    (h : CensusInv x)
    (hkeeps : KeepsCensus x i) :
    CensusInv (censusStep x i) := by
  obtain ⟨hlegal, hpath⟩ := hkeeps
  have hwho := h.pool.who hlegal
  have hconn := hlegal.1
  have hbefore := h.balanced i.who
  have hothers := others_nonneg x.pool i.who
  refine censusInv_of_balanced (poolInv_step h.pool hlegal) ?_
  have heq := transition_eq h.pool hlegal
  cases hgoes : goesOn i.input.event with
  | true =>
      have hlive := live_of_goesOn hwho hconn hgoes
      have hplace : place (x.pool.tcb i.who) = some (x.pool.tcb i.who).state := by
        rw [place, hlive, if_pos rfl]
      have hcount : countTransition x.pool i x.census =
          countEnters (x.pool.tcb i.who).state (enters (transition x.pool i).out) x.census := by
        unfold countTransition
        cases hevent : i.input.event with
        | «open» _ | accept _ | purge =>
            simp [goesOn, hevent] at hgoes
        | send _ | close | segment _ | rtoTimer | slowTimer =>
            rfl
      have hstep := connStep_traced (poolCfg_ok h.pool hlegal) hwho hconn hgoes
      rcases hstep with htraced | ⟨-, hleaves⟩
      · obtain ⟨o, ho, hok, -⟩ := htraced.path
        rw [List.nil_append] at ho
        rw [hplace] at hbefore
        rw [hcount, heq, place_goesOn htraced]
        rw [← ho] at hok
        exact countEnters_balanced hbefore hothers (hwho.resting hlive).2.2 hok
      · exact absurd hleaves hpath
  | false =>
      unfold ConnLegal at hconn
      unfold countTransition
      cases hevent : i.input.event with
      | «open» active =>
          simp only [hevent] at hconn
          rw [place, hconn, if_neg (by simp)] at hbefore
          rw [heq]
          simp only [connStep, hevent]
          exact opened_balanced (i.input.env (poolCfg x.pool i)) active _ hbefore hothers
      | accept syn =>
          simp only [hevent] at hconn
          rw [place, hconn.1, if_neg (by simp)] at hbefore
          rw [heq]
          simp only [connStep, hevent]
          exact accepted_balanced (i.input.env (poolCfg x.pool i)) syn hbefore
      | purge =>
          simp only [hevent] at hconn
          rw [place, hconn, if_pos rfl] at hbefore
          have hdead : place (transition x.pool i).tcb = none := by
            rw [heq]
            simp only [connStep, hevent]
            rw [place, (tcpSilentClose_dead _).1, if_neg (by simp)]
          rw [hdead]
          exact hbefore.terminate (hothers _) (hwho.resting hconn).1
      | send _ | close | segment _ | rtoTimer | slowTimer =>
          simp [goesOn, hevent] at hgoes

/--
Over any number of control blocks the counters are the numbers of live control blocks in each
state, none is decremented below zero, and the assertion holds, as long as no listening
control block is closed and no callback closes a connection while it is handed the data of a
SYN-ACK.
-/
theorem census_ok
    {is : List (PoolInput ι)}
    (hrun : Guarded censusStep KeepsCensus (Counted.blank ι) is) :
    CensusOk (run censusStep (Counted.blank ι) is) :=
  (run_invariant CensusInv (fun _ _ => censusInv_step) censusInv_blank hrun).censusOk

end Runs

section Inputs

/-- An event of one member in an environment where nothing fails. -/
def plainInput {ι : Type} (who : ι) (event : ConnEvent) : PoolInput ι :=
  { who := who
    input := .plain event
    cfg := defaultConfig
    listener := who }

/-- A listening control block accepts a connection, which is established and closed. -/
def acceptedRun : List (PoolInput Bool) :=
  [plainInput false (.open false),
    { plainInput true (.accept (plainPcb 100 0 { syn := true } [])) with listener := false },
    plainInput true (.segment (plainPcb 101 1 { ack := true } [])),
    plainInput true .close]

theorem census_ok_accepted :
    CensusOk (run censusStep (Counted.blank Bool) acceptedRun) :=
  census_ok (by decide +kernel)

/-- A listening control block is opened and closed. -/
def listenerRun : List (PoolInput Unit) :=
  [plainInput () (.open false), plainInput () .close]

/-- The application closes the connection when it is handed the data of a SYN-ACK. -/
def synAckRun : List (PoolInput Unit) :=
  [plainInput () (.open true),
    { plainInput () .close with
      input :=
        { event := .segment (plainPcb 0 1 { syn := true, ack := true } [1, 2])
          answer := fun _ _ => .close
          sendOk := fun _ => true
          dataPending := false } }]

/-- A closed listening control block stays counted; a closed connection is discounted twice. -/
theorem listenerClose_miscounts :
    (Guarded censusStep (fun x i => PoolLegal x.pool i) (Counted.blank Unit) listenerRun ∧
      ¬ CensusOk (run censusStep (Counted.blank Unit) listenerRun)) ∧
    (Guarded censusStep (fun x i => PoolLegal x.pool i) (Counted.blank Unit) synAckRun ∧
      ¬ CensusOk (run censusStep (Counted.blank Unit) synAckRun)) := by
  refine ⟨⟨by decide +kernel, fun h => ?_⟩, ⟨by decide +kernel, fun h => ?_⟩⟩
  · have hcount := h.counts .listen (by simp)
    revert hcount
    decide +kernel
  · have hbelow := h.notBelowZero
    revert hbelow
    decide +kernel

end Inputs

end StateCensus
end Warp17
