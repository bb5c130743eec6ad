import Mathlib.Data.List.Basic
import Mathlib.Data.List.Sort
import Warp17.GuardedRuns
import Warp17.TestCaseConfig

/-!
# Starting the test cases of a port

The test manager runs the configured test cases of a port one after the other.
`test_start_cb` starts the first; each running test case has a periodic timer, whose callback
`test_entry_tmr_cb` asks for the status of its test case and may start the next one; the port
stops running when no test case is.  See src/src/tpg_test_mgmt.c.

The status of a test case is left to the environment (`Status`): a timer fires whenever it is
pending, in any order, with any status.  The list `started` is not in the source; it records the
test cases in the order in which they were started.

**Results**
- `nextConfigured_eq`: the loop that looks for the next test case finds the first that waits.
- `testStartCb_inv`, `testEntryTmrCb_inv`: what is started is a prefix of the configured ids in
  ascending order, and the port runs on until every test case has finished.
- `scheduling_ok`: a run starts its test cases as it should exactly when no id is missing
  after the test case whose turn is over.
- `consecutive_ok`: so it does for consecutive ids, whatever the timers do.
-/

namespace Warp17
namespace TestScheduling

open GuardedRuns TestCaseConfig

/-- `TEST_CASE_STATE__*`. -/
inductive TestCaseState
  | idle
  | running
  | passed
  | failed
  | stopped
deriving DecidableEq, Repr

/-- `test_env_oper_state_t`, with whether the timer is pending. -/
structure OperState where
  teosTestCaseState : TestCaseState
  teosConfigured : Bool
  teosUpdateRates : Bool
  teosTimerPending : Bool
deriving DecidableEq, Repr

/-- An element of `te_test_cases`. -/
structure Slot where
  cfg : TestCase
  state : OperState
deriving DecidableEq, Repr

/-- `test_env_t`, as far as starting the tests uses it. -/
structure TestEnv where
  teTestCases : Nat → Slot
  teTestCasesCount : Nat
  teTestRunning : Bool
  teTestCaseToStart : Bool
  teTestCaseNext : Nat
  started : List Nat

/-- What `test_check_tc_status` makes of the statistics: its result and `passed`. -/
inductive Status
  | notYet
  | passed
  | failed
deriving DecidableEq, Repr

def Status.done (status : Status) : Bool :=
  status ≠ .notYet

def Slot.isServer (slot : Slot) : Bool :=
  match slot.cfg.side with
  | .server _ => true
  | _ => false

/-- `TEST_CASE_RUNNING`: a server test case that has passed goes on running. -/
def Slot.testCaseRunning (slot : Slot) : Bool :=
  slot.state.teosTestCaseState = .running ||
    (slot.isServer && slot.state.teosTestCaseState = .passed)

def Slot.setState (slot : Slot) (state : TestCaseState) : Slot :=
  { slot with state := { slot.state with teosTestCaseState := state } }

def Slot.setTimer (slot : Slot) (pending : Bool) : Slot :=
  { slot with state := { slot.state with teosTimerPending := pending } }

/-- The configured ids, as `TEST_CASE_FOREACH` goes through them. -/
def configuredIds (env : TestEnv) : List Nat :=
  (List.range tpgTestMaxEntries).filter fun tcid => (env.teTestCases tcid).state.teosConfigured

def testMgmtTestCaseFirst (env : TestEnv) : Option TestCase :=
  (configuredIds env).head?.map fun tcid => (env.teTestCases tcid).cfg

/-- The loop of `test_start_test_case`: the first configured id above `tcid`. -/
def nextConfigured (env : TestEnv) (tcid : Nat) : Option Nat :=
  (configuredIds env).find? fun tcidNext => tcidNext > tcid

def TestEnv.setSlot (env : TestEnv) (tcid : Nat) (slot : Slot) : TestEnv :=
  { env with teTestCases := Function.update env.teTestCases tcid slot }

def testStartTestCase (env : TestEnv) : TestEnv :=
  let tcid := env.teTestCaseNext
  let slot := (((env.teTestCases tcid).setState .running).setTimer true)
  let env' := { env.setSlot tcid slot with started := env.started ++ [tcid] }
  match nextConfigured env' tcid with
  | some tcidNext => { env' with teTestCaseNext := tcidNext }
  | none => { env' with teTestCaseToStart := false }

/-- The effect of `test_stop_test_case` on the test case. -/
def testStopTestCase (slot : Slot) (newTcState : TestCaseState) : Slot :=
  if slot.state.teosTestCaseState = .idle ∨ slot.state.teosTestCaseState = .stopped then slot
  else slot.setState newTcState

/-- The part of `test_entry_tmr_cb` about the test case of the timer. -/
def updateStatus (slot : Slot) (status : Status) : Slot :=
  let slot := if status = .passed then slot.setState .passed else slot
  if status.done then
    let slot := if status ≠ .passed then slot.setState .failed else slot
    if !slot.isServer then
      testStopTestCase (slot.setTimer false) slot.state.teosTestCaseState
    else slot
  else slot

def toggleRates (slot : Slot) : Slot :=
  { slot with state := { slot.state with teosUpdateRates := !slot.state.teosUpdateRates } }

/-- `te_test_case_next - 1` in `uint32_t`. -/
def nextMinusOne (env : TestEnv) : Nat :=
  (env.teTestCaseNext + 2 ^ 32 - 1) % 2 ^ 32

/-- The part of `test_entry_tmr_cb` that may start another test case. -/
def startAnother (env : TestEnv) (tcid : Nat) (status : Status) : TestEnv :=
  if (status.done || (env.teTestCases tcid).cfg.tcAsync) &&
      (env.teTestCaseToStart && tcid = nextMinusOne env) then testStartTestCase env
  else env

/-- The part of `test_entry_tmr_cb` that may end the tests of the port. -/
def checkStopped (env : TestEnv) (status : Status) : TestEnv :=
  if status.done && !env.teTestCaseToStart then
    if (configuredIds env).any fun tcid => (env.teTestCases tcid).testCaseRunning then env
    else { env with teTestRunning := false }
  else env

/-- The part of `test_entry_tmr_cb` up to its own status. -/
def storeStatus (env : TestEnv) (tcid : Nat) (status : Status) : TestEnv :=
  env.setSlot tcid (updateStatus (env.teTestCases tcid) status)

/-- The part of `test_entry_tmr_cb` after another test case may have been started. -/
def finishTimer (env : TestEnv) (tcid : Nat) (status : Status) : TestEnv :=
  checkStopped (env.setSlot tcid (toggleRates (env.teTestCases tcid))) status

def testEntryTmrCb (env : TestEnv) (tcid : Nat) (status : Status) : TestEnv :=
  finishTimer (startAnother (storeStatus env tcid status) tcid status) tcid status

/-- The timer of a test case fires, if it is pending. -/
def timerFires (env : TestEnv) (event : Nat × Status) : TestEnv :=
  if (env.teTestCases event.1).state.teosTimerPending then testEntryTmrCb env event.1 event.2
  else env

/-- `test_start_cb`, less the network interfaces and the messages to the packet cores. -/
def testStartCb (env : TestEnv) : TestEnv :=
  if env.teTestRunning then env
  else
    let env := { env with teTestRunning := true }
    if env.teTestCasesCount = 0 then env
    else
      let env :=
        { env with
          teTestCases := fun tcid => (env.teTestCases tcid).setTimer false
          started := [] }
      match testMgmtTestCaseFirst env with
      | none => env
      | some first =>
          testStartTestCase
            { env with
              teTestCaseToStart := env.teTestCasesCount > 1
              teTestCaseNext := first.tcId }

/-! ## What is asked of a run -/

/-- The status of the test case has been settled. -/
def Slot.hasVerdict (slot : Slot) : Bool :=
  slot.state.teosTestCaseState = .passed || slot.state.teosTestCaseState = .failed

/-- Every configured test case has been started and is running no longer. -/
def AllFinished (env : TestEnv) : Prop :=
  ∀ tcid ∈ configuredIds env,
    tcid ∈ env.started ∧ (env.teTestCases tcid).testCaseRunning = false

/-- The turn of the last test case started is over: its timer fires, and it is done or async. -/
def TurnOver (env : TestEnv) (event : Nat × Status) : Prop :=
  env.started.getLast? = some event.1 ∧
    (env.teTestCases event.1).state.teosTimerPending = true ∧
    (event.2.done = true ∨ (env.teTestCases event.1).cfg.tcAsync = true)

/--
What is asked of a timer: the started test cases are the first of the configured ones in
ascending order; a test case is only started after one that is asynchronous or has its verdict;
one is started when the turn of the previous is over; and the port no longer runs when all have
finished.
-/
structure StepOk (env : TestEnv) (event : Nat × Status) : Prop where
  order : (timerFires env event).started <+: configuredIds env
  previous : (timerFires env event).started = env.started ∨
    ∃ prev next, env.started.getLast? = some prev ∧
      (timerFires env event).started = env.started ++ [next] ∧
      ((env.teTestCases prev).cfg.tcAsync = true ∨
        ((timerFires env event).teTestCases prev).hasVerdict = true)
  progress : TurnOver env event → env.started ≠ configuredIds env →
    (timerFires env event).started ≠ env.started
  cleared : AllFinished (timerFires env event) → (timerFires env event).teTestRunning = false

/-- When the turn of a test case is over and a larger id is configured, so is the next id. -/
def NoGapAhead (env : TestEnv) (event : Nat × Status) : Prop :=
  TurnOver env event → (∃ tcid ∈ configuredIds env, event.1 < tcid) →
    event.1 + 1 ∈ configuredIds env

/-! ## The ids in order -/

theorem configuredIds_sorted
    (env : TestEnv) :
    (configuredIds env).Pairwise (· < ·) :=
  List.pairwise_lt_range.filter _

theorem lt_of_mem_configuredIds
    {env : TestEnv} {tcid : Nat}
    (hmem : tcid ∈ configuredIds env) :
    tcid < tpgTestMaxEntries :=
  List.mem_range.1 (List.mem_filter.1 hmem).1

theorem configuredIds_congr
    {env env' : TestEnv}
    (hconfigured : ∀ tcid, (env'.teTestCases tcid).state.teosConfigured =
      (env.teTestCases tcid).state.teosConfigured) :
    configuredIds env' = configuredIds env := by
  simp only [configuredIds, hconfigured]

theorem configuredIds_setSlot
    {env : TestEnv} {tcid : Nat} {slot : Slot}
    (hslot : slot.state.teosConfigured = (env.teTestCases tcid).state.teosConfigured) :
    configuredIds (env.setSlot tcid slot) = configuredIds env := by
  refine configuredIds_congr fun i => ?_
  by_cases hi : i = tcid
  · subst hi
    simp [TestEnv.setSlot, hslot]
  · simp [TestEnv.setSlot, Function.update_of_ne hi]

section Order

variable {env : TestEnv} {front rest : List Nat} {tcid : Nat}

/-- What comes before an id is smaller, what comes after is larger. -/
theorem around_id
    (hids : configuredIds env = front ++ tcid :: rest) :
    (∀ i ∈ front, i < tcid) ∧ (∀ i ∈ rest, tcid < i) := by
  have hsorted := configuredIds_sorted env
  rw [hids, List.pairwise_append, List.pairwise_cons] at hsorted
  exact ⟨fun i hi => hsorted.2.2 i hi tcid (List.mem_cons_self ..), hsorted.2.1.1⟩

/-- The loop over the ids finds the one after `tcid`. -/
theorem nextConfigured_eq
    (hids : configuredIds env = front ++ tcid :: rest) :
    nextConfigured env tcid = rest.head? := by
  obtain ⟨hfront, hrest⟩ := around_id hids
  have hnone : front.find? (fun tcidNext => tcidNext > tcid) = none := by
    rw [List.find?_eq_none]
    intro i hi
    have hlt := hfront i hi
    simp only [gt_iff_lt, decide_eq_true_eq]
    omega
  rw [nextConfigured, hids, List.find?_append, hnone, Option.none_or, List.find?_cons_of_neg]
  · cases rest with
    | nil =>
        rfl
    | cons next later =>
        have hlt := hrest next (List.mem_cons_self ..)
        simp [hlt]
  · simp

/-- A started test case just below the first that waits was the last to be started. -/
theorem getLast_started
    (hids : configuredIds env = env.started ++ (tcid + 1) :: rest)
    (hmem : tcid ∈ env.started) :
    env.started.getLast? = some tcid := by
  rcases List.eq_nil_or_concat' env.started with hnil | ⟨before, last, hstarted⟩
  · rw [hnil] at hmem
    cases hmem
  · have hids' : configuredIds env = before ++ last :: (tcid + 1) :: rest := by
      rw [hids, hstarted, List.append_assoc, List.singleton_append]
    obtain ⟨hbefore, hafter⟩ := around_id hids'
    have hlast : last < tcid + 1 := hafter (tcid + 1) (List.mem_cons_self ..)
    rw [hstarted, List.mem_append, List.mem_singleton] at hmem
    rcases hmem with hmem | rfl
    · have hlt := hbefore tcid hmem
      omega
    · rw [hstarted, List.getLast?_concat]

theorem not_mem_waiting
    (hids : configuredIds env = front ++ rest)
    (hmem : tcid ∈ rest) :
    tcid ∉ front := by
  intro hfront
  have hsorted := configuredIds_sorted env
  rw [hids, List.pairwise_append] at hsorted
  exact Nat.lt_irrefl tcid (hsorted.2.2 tcid hfront tcid hmem)

end Order

/-! ## One timer -/

/-- What waits, and how the port keeps track of it. -/
structure Waits (env : TestEnv) (waiting : List Nat) : Prop where
  ids : configuredIds env = env.started ++ waiting
  toStart : env.teTestCaseToStart = true ↔ waiting ≠ []
  next : ∀ next, waiting.head? = some next → env.teTestCaseNext = next

/-- The invariant of a run: what waits is known, and the port runs while something does. -/
structure Inv (env : TestEnv) : Prop where
  waits : ∃ waiting, Waits env waiting
  pending : ∀ tcid, (env.teTestCases tcid).state.teosTimerPending = true → tcid ∈ env.started
  clear : AllFinished env → env.teTestRunning = false

section Slots

variable (slot : Slot) (state : TestCaseState) (status : Status)

@[simp] theorem setState_isServer :
    (slot.setState state).isServer = slot.isServer := by
  rfl

@[simp] theorem setState_testCaseState :
    (slot.setState state).state.teosTestCaseState = state := by
  rfl

@[simp] theorem setTimer_isServer (pending : Bool) :
    (slot.setTimer pending).isServer = slot.isServer := by
  rfl

/-- Stopping a test case that has its verdict leaves the verdict. -/
theorem testStopTestCase_verdict
    (hidle : state ≠ .idle)
    (hstopped : state ≠ .stopped) :
    testStopTestCase ((slot.setState state).setTimer false) state =
      (slot.setState state).setTimer false := by
  simp [testStopTestCase, Slot.setState, Slot.setTimer, hidle, hstopped]

theorem updateStatus_passed :
    updateStatus slot .passed =
      if slot.isServer then slot.setState .passed else (slot.setState .passed).setTimer false := by
  have hstop := testStopTestCase_verdict slot .passed nofun nofun
  cases hserver : slot.isServer with
  | false =>
      simp [updateStatus, Status.done, hserver, hstop]
  | true =>
      simp [updateStatus, Status.done, hserver]

theorem updateStatus_failed :
    updateStatus slot .failed =
      if slot.isServer then slot.setState .failed else (slot.setState .failed).setTimer false := by
  have hstop := testStopTestCase_verdict slot .failed nofun nofun
  cases hserver : slot.isServer with
  | false =>
      simp [updateStatus, Status.done, hserver, hstop]
  | true =>
      simp [updateStatus, Status.done, hserver]

@[simp] theorem updateStatus_notYet :
    updateStatus slot .notYet = slot := by
  rfl

@[simp] theorem updateStatus_cfg :
    (updateStatus slot status).cfg = slot.cfg := by
  cases status with
  | notYet =>
      rfl
  | passed =>
      rw [updateStatus_passed]
      split_ifs <;> rfl
  | failed =>
      rw [updateStatus_failed]
      split_ifs <;> rfl

@[simp] theorem updateStatus_configured :
    (updateStatus slot status).state.teosConfigured = slot.state.teosConfigured := by
  cases status with
  | notYet =>
      rfl
  | passed =>
      rw [updateStatus_passed]
      split_ifs <;> rfl
  | failed =>
      rw [updateStatus_failed]
      split_ifs <;> rfl

theorem updateStatus_hasVerdict
    (hdone : status.done = true) :
    (updateStatus slot status).hasVerdict = true := by
  cases status with
  | notYet =>
      cases hdone
  | passed =>
      rw [updateStatus_passed]
      split_ifs <;> rfl
  | failed =>
      rw [updateStatus_failed]
      split_ifs <;> rfl

@[simp] theorem toggleRates_configured :
    (toggleRates slot).state.teosConfigured = slot.state.teosConfigured := by
  rfl

@[simp] theorem toggleRates_hasVerdict :
    (toggleRates slot).hasVerdict = slot.hasVerdict := by
  rfl

@[simp] theorem toggleRates_testCaseRunning :
    (toggleRates slot).testCaseRunning = slot.testCaseRunning := by
  rfl

end Slots

/-- The environment with the next test case started. -/
structure StartsNext (env env' : TestEnv) (next : Nat) (later : List Nat) : Prop where
  ids : configuredIds env' = configuredIds env
  started : env'.started = env.started ++ [next]
  running : env'.teTestRunning = env.teTestRunning
  slot : (env'.teTestCases next).state.teosTestCaseState = .running
  others : ∀ tcid, tcid ≠ next → env'.teTestCases tcid = env.teTestCases tcid
  toStart : env'.teTestCaseToStart = true ↔ later ≠ []
  next : ∀ n, later.head? = some n → env'.teTestCaseNext = n

theorem testStartTestCase_spec
    {env : TestEnv} {later : List Nat}
    (hids : configuredIds env = env.started ++ env.teTestCaseNext :: later)
    (htoStart : later ≠ [] → env.teTestCaseToStart = true) :
    StartsNext env (testStartTestCase env) env.teTestCaseNext later := by
  have hconfigured : configuredIds (env.setSlot env.teTestCaseNext
      (((env.teTestCases env.teTestCaseNext).setState .running).setTimer true)) =
      configuredIds env :=
    configuredIds_setSlot rfl
  have hloop : nextConfigured (env.setSlot env.teTestCaseNext
      (((env.teTestCases env.teTestCaseNext).setState .running).setTimer true))
      env.teTestCaseNext = later.head? :=
    nextConfigured_eq (hconfigured.trans hids)
  have hloop' : nextConfigured
      { env.setSlot env.teTestCaseNext
          (((env.teTestCases env.teTestCaseNext).setState .running).setTimer true) with
        started := env.started ++ [env.teTestCaseNext] } env.teTestCaseNext = later.head? :=
    hloop
  cases later with
  | nil =>
      simp only [testStartTestCase, hloop', List.head?_nil]
      constructor
      · exact hconfigured
      · rfl
      · rfl
      · simp [TestEnv.setSlot, Slot.setState, Slot.setTimer]
      · intro tcid hne
        simp [TestEnv.setSlot, Function.update_of_ne hne]
      · simp
      · simp
  | cons n rest =>
      simp only [testStartTestCase, hloop', List.head?_cons]
      constructor
      · exact hconfigured
      · rfl
      · rfl
      · simp [TestEnv.setSlot, Slot.setState, Slot.setTimer]
      · intro tcid hne
        simp [TestEnv.setSlot, Function.update_of_ne hne]
      · simpa [TestEnv.setSlot] using htoStart
      · simp

/-- A change that leaves alone what decides whose turn it is. -/
structure SameTurn (env env' : TestEnv) : Prop where
  ids : configuredIds env' = configuredIds env
  started : env'.started = env.started
  toStart : env'.teTestCaseToStart = env.teTestCaseToStart
  next : env'.teTestCaseNext = env.teTestCaseNext

theorem setSlot_sameTurn
    {env : TestEnv} {tcid : Nat} {slot : Slot}
    (hslot : slot.state.teosConfigured = (env.teTestCases tcid).state.teosConfigured) :
    SameTurn env (env.setSlot tcid slot) :=
  ⟨configuredIds_setSlot hslot, rfl, rfl, rfl⟩

theorem checkStopped_sameTurn
    (env : TestEnv) (status : Status) :
    SameTurn env (checkStopped env status) := by
  unfold checkStopped
  split_ifs
  · exact ⟨rfl, rfl, rfl, rfl⟩
  · exact ⟨rfl, rfl, rfl, rfl⟩
  · exact ⟨rfl, rfl, rfl, rfl⟩

theorem SameTurn.waits
    {env env' : TestEnv} {waiting : List Nat}
    (hsame : SameTurn env env')
    (hwaits : Waits env waiting) :
    Waits env' waiting := by
  constructor
  · rw [hsame.ids, hsame.started]
    exact hwaits.ids
  · rw [hsame.toStart]
    exact hwaits.toStart
  · rw [hsame.next]
    exact hwaits.next

theorem StartsNext.waits
    {env env' : TestEnv} {next : Nat} {later : List Nat}
    (hstarts : StartsNext env env' next later)
    (hwaits : Waits env (next :: later)) :
    Waits env' later := by
  constructor
  · rw [hstarts.ids, hstarts.started, hwaits.ids, List.append_assoc, List.singleton_append]
  · exact hstarts.toStart
  · exact hstarts.next

/-- The comparison with `te_test_case_next - 1` asks for the very next id. -/
theorem startAnother_cases
    {env : TestEnv} {tcid : Nat} {waiting : List Nat}
    (hwaits : Waits env waiting)
    (hmem : tcid ∈ env.started)
    (status : Status) :
    (startAnother env tcid status = env ∧
        ¬ ((status.done = true ∨ (env.teTestCases tcid).cfg.tcAsync = true) ∧
          waiting.head? = some (tcid + 1))) ∨
      (∃ later, waiting = (tcid + 1) :: later ∧
        (status.done = true ∨ (env.teTestCases tcid).cfg.tcAsync = true) ∧
        StartsNext env (startAnother env tcid status) (tcid + 1) later) := by
  cases waiting with
  | nil =>
      have hstay : env.teTestCaseToStart = false := by
        simpa using hwaits.toStart
      exact .inl ⟨by simp [startAnother, hstay], by simp⟩
  | cons next later =>
      have hstart : env.teTestCaseToStart = true := hwaits.toStart.2 nofun
      have hnext : env.teTestCaseNext = next := hwaits.next next rfl
      have hmem' : next ∈ configuredIds env := by
        rw [hwaits.ids]
        simp
      have hbound : next < tpgTestMaxEntries := lt_of_mem_configuredIds hmem'
      have hlt : tcid < next := (around_id hwaits.ids).1 tcid hmem
      have hminus : tcid = nextMinusOne env ↔ next = tcid + 1 := by
        unfold nextMinusOne
        rw [hnext]
        have hmax : tpgTestMaxEntries = 16 := rfl
        omega
      by_cases hturn : status.done = true ∨ (env.teTestCases tcid).cfg.tcAsync = true
      · by_cases hone : next = tcid + 1
        · subst hone
          have heq : startAnother env tcid status = testStartTestCase env := by
            have hcond : (status.done || (env.teTestCases tcid).cfg.tcAsync) = true := by
              simpa using hturn
            simp [startAnother, hcond, hstart, hminus]
          refine .inr ⟨later, rfl, hturn, ?_⟩
          rw [heq, ← hnext]
          refine testStartTestCase_spec ?_ fun _ => hstart
          rw [hnext]
          exact hwaits.ids
        · refine .inl ⟨?_, fun hboth => hone (by simpa using hboth.2)⟩
          simp [startAnother, hminus, hone]
      · refine .inl ⟨?_, fun hboth => hturn hboth.1⟩
        have hcond : (status.done || (env.teTestCases tcid).cfg.tcAsync) = false := by
          simpa using hturn
        simp [startAnother, hcond]

theorem Waits.not_allFinished
    {env : TestEnv} {waiting : List Nat}
    (hwaits : Waits env waiting)
    (hne : waiting ≠ []) :
    ¬ AllFinished env := by
  intro hall
  obtain ⟨next, hnext⟩ := List.exists_mem_of_ne_nil waiting hne
  have hmem : next ∈ configuredIds env := by
    rw [hwaits.ids]
    exact List.mem_append_right _ hnext
  exact not_mem_waiting hwaits.ids hnext (hall next hmem).1

theorem checkStopped_slots
    (env : TestEnv) (status : Status) :
    (checkStopped env status).teTestCases = env.teTestCases := by
  unfold checkStopped
  split_ifs <;> rfl

section FinishTimer

variable (env : TestEnv) (tcid : Nat) (status : Status)

theorem finishTimer_sameTurn :
    SameTurn env (finishTimer env tcid status) := by
  have hslot : SameTurn env (env.setSlot tcid (toggleRates (env.teTestCases tcid))) :=
    setSlot_sameTurn (toggleRates_configured _)
  have hcheck := checkStopped_sameTurn
    (env.setSlot tcid (toggleRates (env.teTestCases tcid))) status
  exact ⟨hcheck.ids.trans hslot.ids, hcheck.started.trans hslot.started,
    hcheck.toStart.trans hslot.toStart, hcheck.next.trans hslot.next⟩

theorem finishTimer_own :
    (finishTimer env tcid status).teTestCases tcid = toggleRates (env.teTestCases tcid) := by
  rw [finishTimer, checkStopped_slots]
  simp [TestEnv.setSlot]

theorem finishTimer_of_ne
    {i : Nat}
    (hi : i ≠ tcid) :
    (finishTimer env tcid status).teTestCases i = env.teTestCases i := by
  rw [finishTimer, checkStopped_slots]
  simp [TestEnv.setSlot, Function.update_of_ne hi]

end FinishTimer

/-- A done test case ends the tests when nothing is to start and nothing runs. -/
theorem checkStopped_clear
    {env : TestEnv} {status : Status}
    (hdone : status.done = true)
    (htoStart : env.teTestCaseToStart = false)
    (hall : AllFinished env) :
    (checkStopped env status).teTestRunning = false := by
  have hnone : ((configuredIds env).any fun tcid =>
      (env.teTestCases tcid).testCaseRunning) = false := by
    rw [List.any_eq_false]
    intro tcid hmem
    simpa using (hall tcid hmem).2
  simp [checkStopped, hdone, htoStart, hnone]

/-- What a timer leaves of the test cases and of the ones that wait. -/
structure FiredWith (env env' : TestEnv) (tcid : Nat) (status : Status) : Prop where
  ids : configuredIds env' = configuredIds env
  own : env'.teTestCases tcid = toggleRates (updateStatus (env.teTestCases tcid) status)
  others : ∀ i, i ≠ tcid → i ∈ env.started → env'.teTestCases i = env.teTestCases i
  unstarted : ∀ i, i ∉ env'.started → env'.teTestCases i = env.teTestCases i

/-- The two outcomes of a timer: nothing is started, or the very next id is. -/
theorem testEntryTmrCb_cases
    {env : TestEnv} {tcid : Nat} {waiting : List Nat}
    (hwaits : Waits env waiting)
    (hmem : tcid ∈ env.started)
    (status : Status) :
    FiredWith env (testEntryTmrCb env tcid status) tcid status ∧
      ((Waits (testEntryTmrCb env tcid status) waiting ∧
          (testEntryTmrCb env tcid status).started = env.started ∧
          ¬ ((status.done = true ∨ (env.teTestCases tcid).cfg.tcAsync = true) ∧
            waiting.head? = some (tcid + 1))) ∨
        (∃ later, waiting = (tcid + 1) :: later ∧
          (status.done = true ∨ (env.teTestCases tcid).cfg.tcAsync = true) ∧
          Waits (testEntryTmrCb env tcid status) later ∧
          (testEntryTmrCb env tcid status).started = env.started ++ [tcid + 1] ∧
          ((testEntryTmrCb env tcid status).teTestCases (tcid + 1)).state.teosTestCaseState =
            .running)) := by
  have hstored : SameTurn env (storeStatus env tcid status) :=
    setSlot_sameTurn (updateStatus_configured ..)
  have hself : (storeStatus env tcid status).teTestCases tcid =
      updateStatus (env.teTestCases tcid) status := by
    simp [storeStatus, TestEnv.setSlot]
  have hother : ∀ i, i ≠ tcid →
      (storeStatus env tcid status).teTestCases i = env.teTestCases i := by
    intro i hi
    simp [storeStatus, TestEnv.setSlot, Function.update_of_ne hi]
  rcases startAnother_cases (hstored.waits hwaits) (hstored.started ▸ hmem) status with
    ⟨hstay, hnot⟩ | ⟨later, hwaiting, hturn, hstarts⟩
  · -- Nothing is started.
    rw [hself, updateStatus_cfg] at hnot
    have hfinish := finishTimer_sameTurn (storeStatus env tcid status) tcid status
    unfold testEntryTmrCb
    rw [hstay]
    refine ⟨⟨hfinish.ids.trans hstored.ids, ?_, ?_, ?_⟩, .inl ⟨hfinish.waits (hstored.waits hwaits),
      hfinish.started.trans hstored.started, hnot⟩⟩
    · rw [finishTimer_own, hself]
    · intro i hi _
      rw [finishTimer_of_ne _ _ _ hi, hother i hi]
    · intro i hi
      have hne : i ≠ tcid := by
        rintro rfl
        exact hi ((hfinish.started.trans hstored.started) ▸ hmem)
      rw [finishTimer_of_ne _ _ _ hne, hother i hne]
  · -- The very next id is started.
    rw [hself, updateStatus_cfg] at hturn
    subst hwaiting
    have hfinish := finishTimer_sameTurn
      (startAnother (storeStatus env tcid status) tcid status) tcid status
    have hstarted : (testEntryTmrCb env tcid status).started = env.started ++ [tcid + 1] := by
      rw [testEntryTmrCb, hfinish.started, hstarts.started, hstored.started]
    have hnext : tcid + 1 ≠ tcid := Nat.succ_ne_self tcid
    refine ⟨⟨hfinish.ids.trans (hstarts.ids.trans hstored.ids), ?_, ?_, ?_⟩,
      .inr ⟨later, rfl, hturn, hfinish.waits (hstarts.waits (hstored.waits hwaits)), hstarted, ?_⟩⟩
    · rw [testEntryTmrCb, finishTimer_own, hstarts.others tcid hnext.symm, hself]
    · intro i hi hi'
      have hne : i ≠ tcid + 1 := by
        rintro rfl
        exact not_mem_waiting hwaits.ids (List.mem_cons_self ..) hi'
      rw [testEntryTmrCb, finishTimer_of_ne _ _ _ hi, hstarts.others i hne, hother i hi]
    · intro i hi
      rw [hstarted, List.mem_append, List.mem_singleton, not_or] at hi
      have hne : i ≠ tcid := fun heq => hi.1 (heq ▸ hmem)
      rw [testEntryTmrCb, finishTimer_of_ne _ _ _ hne, hstarts.others i hi.2, hother i hne]
    · rw [testEntryTmrCb, finishTimer_of_ne _ _ _ hnext]
      exact hstarts.slot

section Fired

variable {env : TestEnv} {tcid : Nat} {status : Status}

theorem testStartTestCase_running
    (env : TestEnv) :
    (testStartTestCase env).teTestRunning = env.teTestRunning := by
  simp only [testStartTestCase]
  split <;> rfl

theorem testEntryTmrCb_notYet_running :
    (testEntryTmrCb env tcid .notYet).teTestRunning = env.teTestRunning := by
  have hstart : (startAnother (storeStatus env tcid .notYet) tcid .notYet).teTestRunning =
      env.teTestRunning := by
    unfold startAnother
    split_ifs
    · rw [testStartTestCase_running]
      rfl
    · rfl
  exact hstart

/-- The tests of the port end with the last test case, and not before. -/
theorem testEntryTmrCb_clear
    (hinv : Inv env)
    (hmem : tcid ∈ env.started)
    (hall : AllFinished (testEntryTmrCb env tcid status)) :
    (testEntryTmrCb env tcid status).teTestRunning = false := by
  obtain ⟨waiting, hwaits⟩ := hinv.waits
  obtain ⟨hfired, houtcome⟩ := testEntryTmrCb_cases hwaits hmem status
  have hnothing : (testEntryTmrCb env tcid status).teTestCaseToStart = false := by
    rcases houtcome with ⟨hwaits', -, -⟩ | ⟨later, -, -, hwaits', -, -⟩
    all_goals
      by_contra hstart
      rw [Bool.not_eq_false, hwaits'.toStart] at hstart
      exact hwaits'.not_allFinished hstart hall
  cases hdone : status.done with
  | true =>
      have hsame := checkStopped_sameTurn
        ((startAnother (storeStatus env tcid status) tcid status).setSlot tcid
          (toggleRates
            ((startAnother (storeStatus env tcid status) tcid status).teTestCases tcid))) status
      refine checkStopped_clear hdone (hsame.toStart.symm.trans hnothing) fun i hi => ?_
      rw [← hsame.ids] at hi
      have hfinished := hall i hi
      rw [testEntryTmrCb, finishTimer, hsame.started, checkStopped_slots] at hfinished
      exact hfinished
  | false =>
      have hnotYet : status = .notYet := by
        simpa [Status.done] using hdone
      subst hnotYet
      rcases houtcome with ⟨hwaits', hstarted, -⟩ | ⟨later, hwaiting, -, -, hstarted, hrunning⟩
      · rw [testEntryTmrCb_notYet_running]
        refine hinv.clear fun i hi => ?_
        have hfinished := hall i (hfired.ids.symm ▸ hi)
        rw [hstarted] at hfinished
        refine ⟨hfinished.1, ?_⟩
        by_cases hi' : i = tcid
        · subst hi'
          rw [hfired.own] at hfinished
          exact hfinished.2
        · rw [← hfired.others i hi' hfinished.1]
          exact hfinished.2
      · -- The test case just started is running.
        have hmem' : tcid + 1 ∈ configuredIds (testEntryTmrCb env tcid .notYet) := by
          rw [hfired.ids, hwaits.ids, hwaiting]
          simp
        have hfinished := (hall (tcid + 1) hmem').2
        simp [Slot.testCaseRunning, hrunning] at hfinished

theorem testEntryTmrCb_inv
    (hinv : Inv env)
    (hmem : tcid ∈ env.started) :
    Inv (testEntryTmrCb env tcid status) := by
  obtain ⟨waiting, hwaits⟩ := hinv.waits
  obtain ⟨hfired, houtcome⟩ := testEntryTmrCb_cases hwaits hmem status
  have hkeeps : ∀ i ∈ env.started, i ∈ (testEntryTmrCb env tcid status).started := by
    intro i hi
    rcases houtcome with ⟨-, hstarted, -⟩ | ⟨later, -, -, -, hstarted, -⟩
    · exact hstarted.symm ▸ hi
    · exact hstarted.symm ▸ List.mem_append_left _ hi
  constructor
  · rcases houtcome with ⟨hwaits', -, -⟩ | ⟨later, -, -, hwaits', -, -⟩
    · exact ⟨waiting, hwaits'⟩
    · exact ⟨later, hwaits'⟩
  · intro i hpending
    by_contra hnot
    rw [hfired.unstarted i hnot] at hpending
    exact hnot (hkeeps i (hinv.pending i hpending))
  · exact testEntryTmrCb_clear hinv hmem

end Fired

theorem timerFires_inv
    {env : TestEnv} (hinv : Inv env)
    (event : Nat × Status) :
    Inv (timerFires env event) := by
  unfold timerFires
  split_ifs with hpending
  · exact testEntryTmrCb_inv hinv (hinv.pending event.1 hpending)
  · exact hinv

/-- At the end of its turn a test case is followed by the next id, or by none. -/
theorem noGapAhead_iff
    {env : TestEnv} {event : Nat × Status} {waiting : List Nat}
    (hwaits : Waits env waiting)
    (hturn : TurnOver env event) :
    NoGapAhead env event ↔ (waiting ≠ [] → waiting.head? = some (event.1 + 1)) := by
  obtain ⟨before, hstarted⟩ := List.getLast?_eq_some_iff.1 hturn.1
  have hids : configuredIds env = before ++ event.1 :: waiting := by
    rw [hwaits.ids, hstarted, List.append_assoc, List.singleton_append]
  obtain ⟨hbefore, hafter⟩ := around_id hids
  have hlarger : (∃ tcid ∈ configuredIds env, event.1 < tcid) ↔ waiting ≠ [] := by
    constructor
    · rintro ⟨tcid, hmem, hlt⟩ rfl
      rw [hids, List.mem_append, List.mem_singleton] at hmem
      rcases hmem with hmem | rfl
      · have hlt' := hbefore tcid hmem
        omega
      · exact Nat.lt_irrefl _ hlt
    · intro hne
      obtain ⟨next, hnext⟩ := List.exists_mem_of_ne_nil waiting hne
      exact ⟨next, by rw [hids]; simp [hnext], hafter next hnext⟩
  have hsucc : event.1 + 1 ∈ configuredIds env ↔ waiting.head? = some (event.1 + 1) := by
    cases waiting with
    | nil =>
        rw [hids, List.mem_append, List.mem_singleton]
        refine iff_of_false ?_ nofun
        rintro (hmem | heq)
        · have hlt := hbefore _ hmem
          omega
        · omega
    | cons next later =>
        have hnext := hafter next (List.mem_cons_self ..)
        have hsorted := configuredIds_sorted env
        rw [hids, List.pairwise_append, List.pairwise_cons, List.pairwise_cons] at hsorted
        rw [hids, List.mem_append, List.mem_cons, List.mem_cons, List.head?_cons, Option.some_inj]
        constructor
        · rintro (hmem | heq | heq | hmem)
          · have hlt := hbefore _ hmem
            omega
          · omega
          · exact heq.symm
          · have hlt := hsorted.2.1.2.1 _ hmem
            omega
        · intro heq
          exact .inr (.inr (.inl heq.symm))
  unfold NoGapAhead
  rw [hlarger, hsucc]
  exact ⟨fun h => h hturn, fun h _ => h⟩


/-- For one timer: it does as it should exactly when there is no gap ahead. -/
theorem stepOk_iff
    {env : TestEnv} (hinv : Inv env)
    (event : Nat × Status) :
    StepOk env event ↔ NoGapAhead env event := by
  obtain ⟨waiting, hwaits⟩ := hinv.waits
  obtain ⟨waiting', hwaits'⟩ := (timerFires_inv hinv event).waits
  have hids : configuredIds (timerFires env event) = configuredIds env := by
    unfold timerFires
    split_ifs with hpending
    · exact (testEntryTmrCb_cases hwaits (hinv.pending _ hpending) event.2).1.ids
    · rfl
  have horder : (timerFires env event).started <+: configuredIds env := by
    rw [← hids, hwaits'.ids]
    exact List.prefix_append ..
  have hclear := (timerFires_inv hinv event).clear
  have hfinished : env.started ≠ configuredIds env ↔ waiting ≠ [] := by
    rw [hwaits.ids, ne_eq, List.self_eq_append_right]
  by_cases hpending : (env.teTestCases event.1).state.teosTimerPending = true
  · have hfires : timerFires env event = testEntryTmrCb env event.1 event.2 := if_pos hpending
    obtain ⟨hfired, houtcome⟩ :=
      testEntryTmrCb_cases hwaits (hinv.pending _ hpending) event.2
    rw [← hfires] at hfired houtcome
    rcases houtcome with ⟨-, hstarted, hnot⟩ | ⟨later, hwaiting, hready, -, hstarted, -⟩
    · constructor
      · intro hok
        by_cases hturn : TurnOver env event
        · rw [noGapAhead_iff hwaits hturn]
          intro hne
          exact absurd hstarted (hok.progress hturn (hfinished.2 hne))
        · exact fun hturn' => absurd hturn' hturn
      · intro hgap
        refine ⟨horder, .inl hstarted, fun hturn hne => ?_, hclear⟩
        have hhead := (noGapAhead_iff hwaits hturn).1 hgap (hfinished.1 hne)
        exact absurd ⟨hturn.2.2, hhead⟩ hnot
    · subst hwaiting
      have hlast : env.started.getLast? = some event.1 :=
        getLast_started hwaits.ids (hinv.pending _ hpending)
      have hturn : TurnOver env event := ⟨hlast, hpending, hready⟩
      refine iff_of_true ⟨horder, .inr ⟨event.1, event.1 + 1, hlast, hstarted, ?_⟩, ?_, hclear⟩ ?_
      · rcases hready with hdone | hasync
        · rw [hfired.own, toggleRates_hasVerdict]
          exact .inr (updateStatus_hasVerdict _ _ hdone)
        · exact .inl hasync
      · intro _ _ hsame
        rw [hstarted] at hsame
        simp at hsame
      · rw [noGapAhead_iff hwaits hturn]
        exact fun _ => rfl
  · have hfires : timerFires env event = env := if_neg hpending
    have hturn : ¬ TurnOver env event := fun hturn => hpending hturn.2.1
    refine iff_of_true ⟨horder, .inl (by rw [hfires]), ?_, hclear⟩ ?_
    · exact fun hturn' => absurd hturn' hturn
    · exact fun hturn' => absurd hturn' hturn

/-! ## Whole runs -/

/-- The port as the management interface leaves it for `test_start_cb`. -/
structure ReadyToStart (env : TestEnv) : Prop where
  notRunning : env.teTestRunning = false
  count : env.teTestCasesCount = (configuredIds env).length
  some : configuredIds env ≠ []
  ids : ∀ tcid ∈ configuredIds env, (env.teTestCases tcid).cfg.tcId = tcid

/-- The port with every timer initialised, about to start its first test case. -/
def beforeFirst (env : TestEnv) (first : Nat) : TestEnv where
  teTestCases := fun tcid => (env.teTestCases tcid).setTimer false
  teTestCasesCount := env.teTestCasesCount
  teTestRunning := true
  teTestCaseToStart := env.teTestCasesCount > 1
  teTestCaseNext := first
  started := []

theorem testStartCb_eq
    {env : TestEnv} {first : Nat} {later : List Nat}
    (hready : ReadyToStart env)
    (hids : configuredIds env = first :: later) :
    testStartCb env = testStartTestCase (beforeFirst env first) := by
  have hcount : env.teTestCasesCount ≠ 0 := by
    rw [hready.count, hids]
    exact Nat.succ_ne_zero _
  have hfirst : (env.teTestCases first).cfg.tcId = first :=
    hready.ids first (by rw [hids]; exact List.mem_cons_self ..)
  have hids' : ∀ count running toStart next started,
      configuredIds ⟨fun tcid => (env.teTestCases tcid).setTimer false, count, running, toStart,
        next, started⟩ = first :: later := by
    intro count running toStart next started
    rw [← hids]
    exact configuredIds_congr fun _ => rfl
  simp only [testStartCb, hready.notRunning, Bool.false_eq_true, if_false, hcount,
    testMgmtTestCaseFirst, hids', List.head?_cons, Option.map_some]
  rw [show ((env.teTestCases first).setTimer false).cfg.tcId = first from hfirst]
  rfl

theorem beforeFirst_ids
    (env : TestEnv) (first : Nat) :
    configuredIds (beforeFirst env first) = configuredIds env :=
  configuredIds_congr fun _ => rfl

theorem testStartCb_spec
    {env : TestEnv} {first : Nat} {later : List Nat}
    (hready : ReadyToStart env)
    (hids : configuredIds env = first :: later) :
    StartsNext (beforeFirst env first) (testStartCb env) first later := by
  rw [testStartCb_eq hready hids]
  refine testStartTestCase_spec ((beforeFirst_ids env first).trans hids) fun hne => ?_
  have hlength : 0 < later.length := List.length_pos_of_ne_nil hne
  simp only [beforeFirst, hready.count, hids, List.length_cons, gt_iff_lt, decide_eq_true_eq]
  omega

theorem testStartCb_inv
    {env : TestEnv}
    (hready : ReadyToStart env) :
    Inv (testStartCb env) := by
  obtain ⟨first, later, hids⟩ := List.exists_cons_of_ne_nil hready.some
  have hspec := testStartCb_spec hready hids
  constructor
  · refine ⟨later, ?_, hspec.toStart, hspec.next⟩
    rw [hspec.ids, hspec.started, beforeFirst_ids, hids]
    rfl
  · intro tcid hpending
    rw [hspec.started]
    by_contra hnot
    have hne : tcid ≠ first := by
      rintro rfl
      exact hnot (by simp)
    rw [hspec.others tcid hne] at hpending
    cases hpending
  · intro hall
    have hfirst : first ∈ configuredIds (testStartCb env) := by
      rw [hspec.ids, beforeFirst_ids, hids]
      exact List.mem_cons_self ..
    have hfinished := (hall first hfirst).2
    simp [Slot.testCaseRunning, hspec.slot] at hfinished

/--
A run of timers starts the test cases of the port in ascending order, each once and in its turn,
and ends the tests after the last one, exactly when no id is missing ahead of a test case whose
turn is over while larger ids are configured.
-/
theorem scheduling_ok
    (env : TestEnv)
    (hready : ReadyToStart env)
    (events : List (Nat × Status)) :
    Guarded timerFires StepOk (testStartCb env) events ↔
      Guarded timerFires NoGapAhead (testStartCb env) events :=
  guarded_congr Inv (fun _ event hinv => stepOk_iff hinv event)
    (fun _ event hinv _ => timerFires_inv hinv event) (testStartCb_inv hready)

theorem timerFires_configuredIds
    {env : TestEnv} (hinv : Inv env)
    (event : Nat × Status) :
    configuredIds (timerFires env event) = configuredIds env := by
  obtain ⟨waiting, hwaits⟩ := hinv.waits
  unfold timerFires
  split_ifs with hpending
  · exact (testEntryTmrCb_cases hwaits (hinv.pending _ hpending) event.2).1.ids
  · rfl

/-- No id is missing between two configured ones. -/
def Consecutive (ids : List Nat) : Prop :=
  ∀ tcid ∈ ids, (∃ larger ∈ ids, tcid < larger) → tcid + 1 ∈ ids

/-- While something waits, the last test case started has no verdict yet. -/
def TurnHeld (env : TestEnv) : Prop :=
  env.started ≠ configuredIds env → ∀ last, env.started.getLast? = some last →
    (env.teTestCases last).hasVerdict = false

theorem timerFires_turnHeld
    {env : TestEnv} {event : Nat × Status}
    (hinv : Inv env)
    (hheld : TurnHeld env)
    (hgap : NoGapAhead env event) :
    TurnHeld (timerFires env event) := by
  obtain ⟨waiting, hwaits⟩ := hinv.waits
  unfold timerFires
  split_ifs with hpending
  · have hmem := hinv.pending _ hpending
    obtain ⟨hfired, houtcome⟩ := testEntryTmrCb_cases hwaits hmem event.2
    rcases houtcome with ⟨-, hstarted, hnot⟩ | ⟨later, -, -, -, hstarted, hrunning⟩
    · intro hne last hlast
      rw [hstarted, hfired.ids] at hne
      rw [hstarted] at hlast
      by_cases hown : last = event.1
      · subst hown
        rw [hfired.own, toggleRates_hasVerdict]
        cases hdone : event.2.done with
        | false =>
            have hnotYet : event.2 = .notYet := by
              simpa [Status.done] using hdone
            rw [hnotYet, updateStatus_notYet]
            exact hheld hne event.1 hlast
        | true =>
            have hturn : TurnOver env event := ⟨hlast, hpending, .inl hdone⟩
            have hwaiting : waiting ≠ [] := by
              rwa [hwaits.ids, ne_eq, List.self_eq_append_right] at hne
            exact absurd ⟨.inl hdone, (noGapAhead_iff hwaits hturn).1 hgap hwaiting⟩ hnot
      · rw [hfired.others last hown (List.mem_of_getLast? hlast)]
        exact hheld hne last hlast
    · intro _ last hlast
      rw [hstarted, List.getLast?_concat, Option.some_inj] at hlast
      subst hlast
      simp [Slot.hasVerdict, hrunning]
  · exact hheld

/-- The test cases of the port, and whether they run, once every started one has its verdict. -/
structure Settled (env : TestEnv) : Prop where
  started : env.started = configuredIds env
  cleared : (∀ tcid ∈ env.started, (env.teTestCases tcid).testCaseRunning = false) →
    env.teTestRunning = false

theorem settled_of_turnHeld
    {env : TestEnv}
    (hinv : Inv env)
    (hne : env.started ≠ [])
    (hheld : TurnHeld env)
    (hverdicts : ∀ tcid ∈ env.started, (env.teTestCases tcid).hasVerdict = true) :
    Settled env := by
  have hall : env.started = configuredIds env := by
    by_contra hsome
    have hlast := List.getLast?_eq_getLast_of_ne_nil hne
    have hnone := hheld hsome _ hlast
    rw [hverdicts _ (List.mem_of_getLast? hlast)] at hnone
    cases hnone
  refine ⟨hall, fun hstopped => hinv.clear fun tcid hmem => ?_⟩
  rw [← hall] at hmem
  exact ⟨hmem, hstopped tcid hmem⟩

/-- For consecutive ids no order of the timers leaves a gap ahead. -/
theorem consecutive_noGapAhead
    {env : TestEnv} (hinv : Inv env)
    (hconsecutive : Consecutive (configuredIds env))
    (event : Nat × Status) :
    NoGapAhead env event := by
  obtain ⟨waiting, hwaits⟩ := hinv.waits
  intro hturn hlarger
  refine hconsecutive event.1 ?_ hlarger
  rw [hwaits.ids]
  exact List.mem_append_left _ (List.mem_of_getLast? hturn.1)

/-- The invariants of a run over consecutive ids. -/
structure Consecutively (env : TestEnv) : Prop where
  inv : Inv env
  ids : Consecutive (configuredIds env)
  some : env.started ≠ []
  held : TurnHeld env

theorem timerFires_consecutively
    {env : TestEnv}
    (hinv : Consecutively env)
    (event : Nat × Status) :
    Consecutively (timerFires env event) := by
  have hgap := consecutive_noGapAhead hinv.inv hinv.ids event
  refine ⟨timerFires_inv hinv.inv event, ?_, ?_, timerFires_turnHeld hinv.inv hinv.held hgap⟩
  · rw [timerFires_configuredIds hinv.inv]
    exact hinv.ids
  · rcases ((stepOk_iff hinv.inv event).2 hgap).previous with hsame | ⟨prev, next, -, hmore, -⟩
    · rw [hsame]
      exact hinv.some
    · rw [hmore]
      simp

theorem testStartCb_consecutively
    {env : TestEnv}
    (hready : ReadyToStart env)
    (hconsecutive : Consecutive (configuredIds env)) :
    Consecutively (testStartCb env) := by
  obtain ⟨first, later, hids⟩ := List.exists_cons_of_ne_nil hready.some
  have hspec := testStartCb_spec hready hids
  have hids' : configuredIds (testStartCb env) = configuredIds env := by
    rw [hspec.ids]
    exact configuredIds_congr fun _ => rfl
  have hstarted : (testStartCb env).started = [first] := hspec.started
  refine ⟨testStartCb_inv hready, hids'.symm ▸ hconsecutive, ?_, ?_⟩
  · rw [hstarted]
    simp
  · intro _ last hlast
    rw [hstarted, List.getLast?_singleton, Option.some_inj] at hlast
    subst hlast
    simp [Slot.hasVerdict, hspec.slot]

/--
With consecutive ids every order of the timers is fine, and once each test case started has its
verdict all have been started, and the port runs no longer if none of them does.
-/
theorem consecutive_ok
    {env : TestEnv}
    (hready : ReadyToStart env)
    (hconsecutive : Consecutive (configuredIds env))
    (events : List (Nat × Status)) :
    Guarded timerFires StepOk (testStartCb env) events ∧
      ((∀ tcid ∈ (run timerFires (testStartCb env) events).started,
          ((run timerFires (testStartCb env) events).teTestCases tcid).hasVerdict = true) →
        Settled (run timerFires (testStartCb env) events)) := by
  have hinit := testStartCb_consecutively hready hconsecutive
  constructor
  · clear hready hconsecutive
    revert hinit
    generalize testStartCb env = start
    induction events generalizing start with
    | nil =>
        exact fun _ => trivial
    | cons event events ih =>
        intro hinit
        have hgap := consecutive_noGapAhead hinit.inv hinit.ids event
        exact ⟨(stepOk_iff hinit.inv event).2 hgap,
          ih _ (timerFires_consecutively hinit event)⟩
  · have hrun := run_invariant_always Consecutively
      (fun _ event hs => timerFires_consecutively hs event) events hinit
    exact settled_of_turnHeld hrun.inv hrun.some hrun.held

/-! ## Ports with two test cases -/

/-- A synchronous RAW client test case. -/
def clientCase (tcid : Nat) : TestCase where
  tcEthPort := 0
  tcId := tcid
  side := .client
    { clSrcIps := ⟨tpgIpv4 1, tpgIpv4 1⟩
      clDstIps := ⟨tpgIpv4 1, tpgIpv4 1⟩
      clL4 := ⟨.tcp, ⟨1, 1⟩, ⟨1, 1⟩⟩
      clRates := ⟨none, none, none⟩
      clMcastSrc := false }
  tcInitDelay := ⟨false, some 0⟩
  tcUptime := ⟨false, none⟩
  tcDowntime := ⟨false, none⟩
  tcApp := .basic (.rawClient ⟨0, 0, ⟨false, false⟩, ⟨false, false⟩⟩)
  tcCriteria := .runTime 10
  tcAsync := false
  hasTcLatency := false
  tcLatency := ⟨⟨false, 0⟩, ⟨false, 0⟩, ⟨false, 0⟩⟩

/-- A port with client test cases `first` and `second`, not yet started. -/
def twoClients (first second : Nat) : TestEnv where
  teTestCases := fun tcid =>
    ⟨clientCase tcid, ⟨.idle, tcid = first || tcid = second, false, false⟩⟩
  teTestCasesCount := 2
  teTestRunning := false
  teTestCaseToStart := false
  teTestCaseNext := 0
  started := []

theorem scheduling_ok_consecutive :
    Guarded timerFires StepOk (testStartCb (twoClients 0 1)) [(0, .passed), (1, .failed)] :=
  (scheduling_ok (twoClients 0 1)
    ⟨rfl, by decide, by decide, by decide⟩ [(0, .passed), (1, .failed)]).2
    ⟨fun _ _ => by decide, fun _ hlarger => absurd hlarger (by decide), trivial⟩

/-- With ids 0 and 2 the second test case is never started and the port never stops running. -/
theorem gapInIds_stalls :
    ¬ Guarded timerFires StepOk (testStartCb (twoClients 0 2)) [(0, .passed)] := by
  rintro ⟨hok, -⟩
  refine hok.progress ⟨by decide, by decide, by decide⟩ (by decide) (by decide)

end TestScheduling
end Warp17
