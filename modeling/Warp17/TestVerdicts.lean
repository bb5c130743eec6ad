import Mathlib.Tactic.SplitIfs
import Warp17.GuardedRuns
import Warp17.TestScheduling

/-!
# The verdict on a test case

At each firing of its timer the test manager polls the statistics of a test case and compares
them with the criterion the test case is configured with: `test_check_tc_status` and the
functions it calls in src/src/tpg_test_mgmt.c.  A test case passes when its criterion is met and
fails when it is not met within the maximum running time.

The totals that a poll finds are left to the environment, and so are the other test cases of the
port.  The management interface accepts an update of the criterion while `te_test_running` is
clear.  An assertion that fails ends the program; the step function then has no result.  Three
flags beside the state of the source record the history since the test case was started: whether
the criterion was met at some poll, whether it was met at some poll since it was last changed,
and whether some poll came after the maximum running time.

**Results**
- `testCheckTcStatus_of_asserts`, `testCheckTcStatus_of_not_asserts`: what a check comes to.
- `pollOk_iff_pollMeets`: for one poll, when the verdict is sound and no assertion fails.
- `verdicts_ok`: for every sequence of polls, updates of the criterion, starts and stops.
-/

namespace Warp17
namespace TestVerdicts

open GuardedRuns TestCaseConfig TestScheduling

/-- What the test manager reads from the machine and its configuration. -/
structure Clock where
  cyclesPerUs : Nat
  timerHz : Nat
  gcfgTestMaxTcRuntime : Nat

/-- The totals of `tpg_gen_stats_t` that a criterion looks at, and the time of the poll. -/
structure Poll where
  now : Nat
  gsUp : Nat
  gsEstab : Nat
  gsStartTime : Nat
  gsEndTime : Nat
deriving DecidableEq, Repr

/-- A test case with the results and the times of `test_env_oper_state_t`. -/
structure Tested where
  slot : Slot
  teosResult : TestCriteria
  teosStartTime : Nat
  teosStopTime : Nat
deriving DecidableEq, Repr

/-- `TPG_TIME_DIFF` on `uint64_t`. -/
def tpgTimeDiff (now prev : Nat) : Nat :=
  (now + 2 ^ 64 - prev) % 2 ^ 64

section Checks

variable (clock : Clock) (tested : Tested) (poll : Poll)

/-- The running time in seconds, as the 32 bit result keeps it. -/
def runTimeS : Nat :=
  tpgTimeDiff poll.now tested.teosStartTime / clock.timerHz % 2 ^ 32

def testCheckRunTimeTcStatus (tcRunTimeS : Nat) : Tested × Bool :=
  let tested' := { tested with teosResult := .runTime (runTimeS clock tested poll) }
  if runTimeS clock tested poll ≥ tcRunTimeS then
    ({ tested' with teosStopTime := poll.now }, true)
  else (tested', false)

def testCheckSrvUpTcStatus (tcSrvUp : Nat) : Tested × Bool :=
  let tested' := { tested with teosResult := .srvUp poll.gsUp }
  if poll.gsUp ≥ tcSrvUp then ({ tested' with teosStopTime := poll.now }, true)
  else (tested', false)

/-- Both ends of the function return true. -/
def testCheckClUpTcStatus (tcClUp : Nat) : Tested × Bool :=
  let tested' := { tested with teosResult := .clUp poll.gsUp }
  if poll.gsUp ≥ tcClUp then ({ tested' with teosStopTime := poll.now }, true)
  else (tested', true)

/-- No result when the assertion on the times fails. -/
def testCheckClEstabTcStatus (tcClEstab : Nat) : Option (Tested × Bool) :=
  let tested' := { tested with teosResult := .clEstab poll.gsEstab }
  if poll.gsEstab ≥ tcClEstab then
    let startTime := if poll.gsStartTime ≠ 0 then poll.gsStartTime else tested.teosStartTime
    if poll.gsEndTime > startTime then
      some ({ tested' with teosStartTime := startTime, teosStopTime := poll.gsEndTime }, true)
    else none
  else some (tested', false)

/-- `test_check_data_tc_status` is an assertion that fails. -/
def testCheckDataTcStatus : Option (Tested × Bool) :=
  none

/-- The switch over the criterion. -/
def checkCriterion : Option (Tested × Bool) :=
  match tested.slot.cfg.tcCriteria with
  | .runTime tcRunTimeS => some (testCheckRunTimeTcStatus clock tested poll tcRunTimeS)
  | .srvUp tcSrvUp => some (testCheckSrvUpTcStatus tested poll tcSrvUp)
  | .clUp tcClUp => some (testCheckClUpTcStatus tested poll tcClUp)
  | .clEstab tcClEstab => testCheckClEstabTcStatus tested poll tcClEstab
  | .dataMbSent _ => testCheckDataTcStatus
  | .max => none

def isRunTime : TestCriteria → Bool
  | .runTime _ => true
  | _ => false

/-- The poll comes after the maximum running time. -/
def outOfTime : Bool :=
  tpgTimeDiff poll.now tested.teosStartTime / clock.cyclesPerUs > clock.gcfgTestMaxTcRuntime

/-- `test_check_tc_status`: the test case, whether it is done, and `passed`. -/
def testCheckTcStatus : Option (Tested × Bool × Bool) :=
  match checkCriterion clock tested poll with
  | none => none
  | some (tested', passed) =>
      if !passed && !isRunTime tested.slot.cfg.tcCriteria then
        if outOfTime clock tested' poll then
          some ({ tested' with teosStopTime := poll.now }, true, passed)
        else some (tested', passed, passed)
      else some (tested', passed, passed)

/-- What the timer callback takes the two results for. -/
def statusOf (done passed : Bool) : Status :=
  if passed then .passed else if done then .failed else .notYet

/-- The criterion is met by what is polled; no statistic counts the data sent. -/
def met : Bool :=
  match tested.slot.cfg.tcCriteria with
  | .runTime tcRunTimeS => runTimeS clock tested poll ≥ tcRunTimeS
  | .srvUp tcSrvUp => poll.gsUp ≥ tcSrvUp
  | .clUp tcClUp => poll.gsUp ≥ tcClUp
  | .clEstab tcClEstab => poll.gsEstab ≥ tcClEstab
  | .dataMbSent _ => false
  | .max => false

end Checks

/-- A test case on its port, with the history of its polls. -/
structure Watched where
  teTestRunning : Bool
  tested : Tested
  everMet : Bool
  metSinceUpdate : Bool
  timedOut : Bool
deriving DecidableEq, Repr

/--
What happens to a test case.  A poll says whether another test case is running or still to be
started; `othersDone` is the timer of another test case that finds none running.
-/
inductive Event
  | poll (p : Poll) (others : Bool)
  | othersDone
  | update (criteria : TestCriteria)
  | portStart
  | start (now : Nat)
  | stop
deriving DecidableEq, Repr

/-- The end of `test_entry_tmr_cb`: the port stops running when no test case does. -/
def Watched.checkStopped (w : Watched) (done others : Bool) : Watched :=
  if done && !others && !w.tested.slot.testCaseRunning then { w with teTestRunning := false }
  else w

/-- `test_entry_tmr_cb` after the check: its assertion, and the status of the test case. -/
def setVerdict (clock : Clock) (w : Watched) (p : Poll) (tested' : Tested) (done passed : Bool) :
    Option Watched :=
  if passed && tested'.slot.state.teosTestCaseState ≠ .passed && !done then none
  else
    some
      { teTestRunning := w.teTestRunning
        tested := { tested' with slot := updateStatus tested'.slot (statusOf done passed) }
        everMet := w.everMet || met clock w.tested p
        metSinceUpdate := w.metSinceUpdate || met clock w.tested p
        timedOut := w.timedOut || outOfTime clock w.tested p }

/-- `test_entry_tmr_cb` as far as the verdict goes. -/
def testEntryTmrCb (clock : Clock) (w : Watched) (p : Poll) (others : Bool) : Option Watched :=
  if w.tested.slot.state.teosTimerPending then
    match testCheckTcStatus clock w.tested p with
    | none => none
    | some (tested', done, passed) =>
        (setVerdict clock w p tested' done passed).map fun w' => w'.checkStopped done others
  else some w

def setSlot (w : Watched) (slot : Slot) : Watched :=
  { w with tested := { w.tested with slot := slot } }

/-- `test_mgmt_update_test_case` with a new criterion, which it does not check. -/
def testMgmtUpdateTestCase (w : Watched) (criteria : TestCriteria) : Watched :=
  if w.teTestRunning then w
  else
    { setSlot w { w.tested.slot with cfg := { w.tested.slot.cfg with tcCriteria := criteria } } with
      metSinceUpdate := false }

/-- `test_start_cb`, as far as it concerns one test case. -/
def testStartCb (w : Watched) : Watched :=
  if w.teTestRunning then w
  else { setSlot w (w.tested.slot.setTimer false) with teTestRunning := true }

/-- `test_start_test_case`, in a run of the port. -/
def testStartTestCase (w : Watched) (now : Nat) : Watched :=
  if w.teTestRunning then
    { teTestRunning := true
      tested :=
        { w.tested with
          slot := (w.tested.slot.setState .running).setTimer true
          teosStartTime := now
          teosStopTime := 0 }
      everMet := false
      metSinceUpdate := false
      timedOut := false }
  else w

/-- `test_stop_cb`, as far as it concerns one test case. -/
def testStopCb (w : Watched) : Watched :=
  if w.teTestRunning then
    { setSlot w (testStopTestCase (w.tested.slot.setTimer false) .stopped) with
      teTestRunning := false }
  else w

/-- The test case after an event; nothing once an assertion has failed. -/
def step (clock : Clock) : Option Watched → Event → Option Watched
  | none, _ => none
  | some w, .poll p others => testEntryTmrCb clock w p others
  | some w, .othersDone => some (w.checkStopped true false)
  | some w, .update criteria => some (testMgmtUpdateTestCase w criteria)
  | some w, .portStart => some (testStartCb w)
  | some w, .start now => some (testStartTestCase w now)
  | some w, .stop => some (testStopCb w)

/-- A test case that has been added and not been started. -/
def configured (cfg : TestCase) : Watched where
  teTestRunning := false
  tested :=
    { slot := ⟨cfg, ⟨.idle, true, false, false⟩⟩
      teosResult := .runTime 0
      teosStartTime := 0
      teosStopTime := 0 }
  everMet := false
  metSinceUpdate := false
  timedOut := false

/--
The verdict agrees with the polls: passed only if the criterion was met, failed only if it was
not and the maximum running time is over.
-/
structure Sound (w : Watched) : Prop where
  passed : w.tested.slot.state.teosTestCaseState = .passed → w.everMet = true
  failed : w.tested.slot.state.teosTestCaseState = .failed →
    w.metSinceUpdate = false ∧ w.timedOut = true

/-- No assertion fails in a state that is reached, and the verdict there is sound. -/
def StateOk : Option Watched → Prop
  | none => False
  | some w => Sound w

/-- A server whose criterion was met goes on meeting it, at least past its time. -/
def StaysMet (clock : Clock) (w : Watched) (p : Poll) : Prop :=
  w.tested.slot.isServer = true → outOfTime clock w.tested p = true →
    w.metSinceUpdate = true → met clock w.tested p = true

/-- The condition on a poll, for each criterion. -/
def PollMeets (clock : Clock) (w : Watched) (p : Poll) : Prop :=
  match w.tested.slot.cfg.tcCriteria with
  | .runTime _ => True
  | .srvUp _ => StaysMet clock w p
  | .clUp tcClUp => tcClUp ≤ p.gsUp ∨ w.everMet = true
  | .clEstab tcClEstab =>
      StaysMet clock w p ∧
        (tcClEstab ≤ p.gsEstab →
          (if p.gsStartTime ≠ 0 then p.gsStartTime else w.tested.teosStartTime) < p.gsEndTime)
  | .dataMbSent _ => False
  | .max => False

/-- The condition on an event. -/
def EventMeets (clock : Clock) (s : Option Watched) : Event → Prop
  | .poll p _ =>
      ∀ w ∈ s, w.tested.slot.state.teosTimerPending = true → PollMeets clock w p
  | _ => True

/-! ## What a poll makes of a criterion -/

section Check

variable (clock : Clock) (tested : Tested) (poll : Poll)

def isClUp : TestCriteria → Bool
  | .clUp _ => true
  | _ => false

/-- The check reports that the criterion is met. -/
def passes : Bool :=
  met clock tested poll || isClUp tested.slot.cfg.tcCriteria

/-- The check reports that the criterion can no longer be met. -/
def isLate : Bool :=
  !isRunTime tested.slot.cfg.tcCriteria && outOfTime clock tested poll

/-- An assertion of the check fails. -/
def Asserts : Prop :=
  match tested.slot.cfg.tcCriteria with
  | .clEstab tcClEstab =>
      tcClEstab ≤ poll.gsEstab ∧
        ¬(if poll.gsStartTime ≠ 0 then poll.gsStartTime else tested.teosStartTime) < poll.gsEndTime
  | .dataMbSent _ => True
  | .max => True
  | _ => False

variable {clock tested poll}

/-- What a check leaves of the test case, and its verdict. -/
structure Checked (tested : Tested) (passed : Bool) (checked : Tested × Bool) : Prop where
  slot : checked.1.slot = tested.slot
  startTime : passed = false → checked.1.teosStartTime = tested.teosStartTime
  verdict : checked.2 = passed

theorem testCheckRunTimeTcStatus_checked
    (n : Nat) :
    Checked tested (decide (runTimeS clock tested poll ≥ n))
      (testCheckRunTimeTcStatus clock tested poll n) := by
  by_cases hmet : runTimeS clock tested poll ≥ n
  · simp only [testCheckRunTimeTcStatus, if_pos hmet, decide_eq_true hmet]
    exact ⟨rfl, nofun, rfl⟩
  · simp only [testCheckRunTimeTcStatus, if_neg hmet, decide_eq_false hmet]
    exact ⟨rfl, fun _ => rfl, rfl⟩

theorem testCheckSrvUpTcStatus_checked
    (n : Nat) :
    Checked tested (decide (poll.gsUp ≥ n)) (testCheckSrvUpTcStatus tested poll n) := by
  by_cases hmet : poll.gsUp ≥ n
  · simp only [testCheckSrvUpTcStatus, if_pos hmet, decide_eq_true hmet]
    exact ⟨rfl, nofun, rfl⟩
  · simp only [testCheckSrvUpTcStatus, if_neg hmet, decide_eq_false hmet]
    exact ⟨rfl, fun _ => rfl, rfl⟩

/-- Unlike its siblings it passes whatever is polled. -/
theorem testCheckClUpTcStatus_checked
    (n : Nat) :
    Checked tested true (testCheckClUpTcStatus tested poll n) := by
  by_cases hmet : poll.gsUp ≥ n
  · simp only [testCheckClUpTcStatus, if_pos hmet]
    exact ⟨rfl, nofun, rfl⟩
  · simp only [testCheckClUpTcStatus, if_neg hmet]
    exact ⟨rfl, nofun, rfl⟩

theorem testCheckClEstabTcStatus_checked
    {n : Nat}
    (htimes : n ≤ poll.gsEstab →
      (if poll.gsStartTime ≠ 0 then poll.gsStartTime else tested.teosStartTime) < poll.gsEndTime) :
    ∃ checked, Checked tested (decide (poll.gsEstab ≥ n)) checked ∧
      testCheckClEstabTcStatus tested poll n = some checked := by
  by_cases hmet : poll.gsEstab ≥ n
  · simp only [testCheckClEstabTcStatus, if_pos hmet, gt_iff_lt, if_pos (htimes hmet),
      decide_eq_true hmet]
    refine ⟨_, ?_, rfl⟩
    exact ⟨rfl, nofun, rfl⟩
  · simp only [testCheckClEstabTcStatus, if_neg hmet, decide_eq_false hmet]
    refine ⟨_, ?_, rfl⟩
    exact ⟨rfl, fun _ => rfl, rfl⟩

theorem checkCriterion_of_not_asserts
    (clock : Clock)
    (hasserts : ¬Asserts tested poll) :
    ∃ checked, Checked tested (passes clock tested poll) checked ∧
      checkCriterion clock tested poll = some checked := by
  unfold Asserts at hasserts
  unfold checkCriterion passes met
  cases hcriteria : tested.slot.cfg.tcCriteria with
  | runTime n =>
      exact ⟨_, by simpa [isClUp] using testCheckRunTimeTcStatus_checked n, rfl⟩
  | srvUp n =>
      exact ⟨_, by simpa [isClUp] using testCheckSrvUpTcStatus_checked n, rfl⟩
  | clUp n =>
      exact ⟨_, by simpa [isClUp] using testCheckClUpTcStatus_checked n, rfl⟩
  | clEstab n =>
      rw [hcriteria] at hasserts
      simpa [isClUp] using testCheckClEstabTcStatus_checked (not_and_not_right.1 hasserts)
  | dataMbSent n =>
      rw [hcriteria] at hasserts
      exact absurd trivial hasserts
  | max =>
      rw [hcriteria] at hasserts
      exact absurd trivial hasserts

theorem checkCriterion_of_asserts
    (hasserts : Asserts tested poll) :
    checkCriterion clock tested poll = none := by
  unfold Asserts at hasserts
  unfold checkCriterion
  cases hcriteria : tested.slot.cfg.tcCriteria with
  | runTime n =>
      rw [hcriteria] at hasserts
      exact hasserts.elim
  | srvUp n =>
      rw [hcriteria] at hasserts
      exact hasserts.elim
  | clUp n =>
      rw [hcriteria] at hasserts
      exact hasserts.elim
  | clEstab n =>
      rw [hcriteria] at hasserts
      simp only [testCheckClEstabTcStatus, ge_iff_le, if_pos hasserts.1, gt_iff_lt,
        if_neg hasserts.2]
  | dataMbSent n =>
      rfl
  | max =>
      rfl

theorem testCheckTcStatus_of_asserts
    (hasserts : Asserts tested poll) :
    testCheckTcStatus clock tested poll = none := by
  simp only [testCheckTcStatus, checkCriterion_of_asserts hasserts]

/-- A poll that fails no assertion passes, is late, or leaves the verdict open. -/
theorem testCheckTcStatus_of_not_asserts
    (clock : Clock)
    (hasserts : ¬Asserts tested poll) :
    ∃ tested', tested'.slot = tested.slot ∧
      testCheckTcStatus clock tested poll =
        some
          (tested', passes clock tested poll || isLate clock tested poll,
            passes clock tested poll) := by
  obtain ⟨⟨tested', passed⟩, ⟨hslot, hstart, rfl⟩, hcheck⟩ :=
    checkCriterion_of_not_asserts clock hasserts
  simp only at hslot hstart hcheck ⊢
  cases hpasses : passes clock tested poll with
  | true =>
      exact ⟨tested', hslot, by simp [testCheckTcStatus, hcheck, hpasses]⟩
  | false =>
      have hlate : outOfTime clock tested' poll = outOfTime clock tested poll := by
        simp only [outOfTime, hstart hpasses]
      cases hrun : isRunTime tested.slot.cfg.tcCriteria with
      | true =>
          exact ⟨tested', hslot, by simp [testCheckTcStatus, hcheck, hpasses, hrun, isLate]⟩
      | false =>
          cases hout : outOfTime clock tested poll with
          | true =>
              refine ⟨{ tested' with teosStopTime := poll.now }, hslot, ?_⟩
              simp [testCheckTcStatus, hcheck, hpasses, hrun, isLate, hlate, hout]
          | false =>
              refine ⟨tested', hslot, ?_⟩
              simp [testCheckTcStatus, hcheck, hpasses, hrun, isLate, hlate, hout]

end Check

/-! ## One poll -/

@[simp] theorem checkStopped_tested
    (w : Watched) (done others : Bool) :
    (w.checkStopped done others).tested = w.tested := by
  simp only [Watched.checkStopped]
  split <;> rfl

@[simp] theorem checkStopped_everMet
    (w : Watched) (done others : Bool) :
    (w.checkStopped done others).everMet = w.everMet := by
  simp only [Watched.checkStopped]
  split <;> rfl

@[simp] theorem checkStopped_metSinceUpdate
    (w : Watched) (done others : Bool) :
    (w.checkStopped done others).metSinceUpdate = w.metSinceUpdate := by
  simp only [Watched.checkStopped]
  split <;> rfl

@[simp] theorem checkStopped_timedOut
    (w : Watched) (done others : Bool) :
    (w.checkStopped done others).timedOut = w.timedOut := by
  simp only [Watched.checkStopped]
  split <;> rfl

/-- The timer of a test case that is not a server stops at its first met criterion. -/
structure Kept (w : Watched) : Prop where
  sound : Sound w
  unmet : w.tested.slot.isServer = false → w.tested.slot.state.teosTimerPending = true →
    w.metSinceUpdate = false

section Poll

variable {clock : Clock} {w : Watched} {p : Poll} {others : Bool}

/-- What a poll that fails no assertion leaves. -/
structure Polled (clock : Clock) (w : Watched) (p : Poll) (w' : Watched) : Prop where
  slot : w'.tested.slot =
    updateStatus w.tested.slot
      (statusOf (passes clock w.tested p || isLate clock w.tested p) (passes clock w.tested p))
  everMet : w'.everMet = (w.everMet || met clock w.tested p)
  metSinceUpdate : w'.metSinceUpdate = (w.metSinceUpdate || met clock w.tested p)
  timedOut : w'.timedOut = (w.timedOut || outOfTime clock w.tested p)

theorem testEntryTmrCb_of_not_pending
    (hpending : w.tested.slot.state.teosTimerPending = false) :
    testEntryTmrCb clock w p others = some w := by
  simp only [testEntryTmrCb, hpending, Bool.false_eq_true, if_false]

theorem testEntryTmrCb_of_asserts
    (hpending : w.tested.slot.state.teosTimerPending = true)
    (hasserts : Asserts w.tested p) :
    testEntryTmrCb clock w p others = none := by
  simp only [testEntryTmrCb, hpending, if_true, testCheckTcStatus_of_asserts hasserts]

/-- The assertion of the timer callback never fails: what passes is done. -/
theorem testEntryTmrCb_of_not_asserts
    (clock : Clock) (others : Bool)
    (hpending : w.tested.slot.state.teosTimerPending = true)
    (hasserts : ¬Asserts w.tested p) :
    ∃ w', testEntryTmrCb clock w p others = some w' ∧ Polled clock w p w' := by
  obtain ⟨tested', hslot, hcheck⟩ := testCheckTcStatus_of_not_asserts clock hasserts
  simp only [testEntryTmrCb, hpending, if_true, hcheck, setVerdict]
  rw [if_neg (by cases passes clock w.tested p <;> simp), Option.map_some]
  refine ⟨_, rfl, ?_⟩
  constructor
  · rw [checkStopped_tested, hslot]
  · rw [checkStopped_everMet]
  · rw [checkStopped_metSinceUpdate]
  · rw [checkStopped_timedOut]

/-- When the check passes, the verdict is sound if the criterion was met now or before. -/
theorem Polled.sound_of_passes
    {w' : Watched}
    (hpolled : Polled clock w p w')
    (hpasses : passes clock w.tested p = true) :
    Sound w' ↔ w.everMet = true ∨ met clock w.tested p = true := by
  have hstate : w'.tested.slot.state.teosTestCaseState = .passed := by
    rw [hpolled.slot, hpasses]
    simp only [statusOf, if_true, updateStatus_passed]
    split <;> rfl
  rw [← Bool.or_eq_true, ← hpolled.everMet]
  constructor
  · intro hsound
    exact hsound.passed hstate
  · intro hever
    refine ⟨fun _ => hever, fun hfailed => ?_⟩
    rw [hstate] at hfailed
    cases hfailed

/-- When the check is late, the verdict is sound if the criterion was not met before. -/
theorem Polled.sound_of_late
    {w' : Watched}
    (hpolled : Polled clock w p w')
    (hpasses : passes clock w.tested p = false)
    (hlate : isLate clock w.tested p = true) :
    Sound w' ↔ w.metSinceUpdate = false := by
  have hmet : met clock w.tested p = false := (Bool.or_eq_false_iff.1 hpasses).1
  have hout : outOfTime clock w.tested p = true := (Bool.and_eq_true_iff.1 hlate).2
  have hstate : w'.tested.slot.state.teosTestCaseState = .failed := by
    rw [hpolled.slot, hpasses, hlate]
    simp only [statusOf, Bool.false_or, if_true, Bool.false_eq_true, if_false,
      updateStatus_failed]
    split <;> rfl
  have hsince : w'.metSinceUpdate = w.metSinceUpdate := by
    rw [hpolled.metSinceUpdate, hmet, Bool.or_false]
  constructor
  · intro hsound
    rw [← hsince]
    exact (hsound.failed hstate).1
  · intro hunmet
    refine ⟨fun hpassed => ?_, fun _ => ⟨by rw [hsince, hunmet], ?_⟩⟩
    · rw [hstate] at hpassed
      cases hpassed
    · rw [hpolled.timedOut, hout, Bool.or_true]

/-- When the check leaves the verdict open, a sound verdict stays sound. -/
theorem Polled.sound_of_open
    {w' : Watched}
    (hpolled : Polled clock w p w')
    (hpasses : passes clock w.tested p = false)
    (hlate : isLate clock w.tested p = false)
    (hsound : Sound w) :
    Sound w' := by
  have hmet : met clock w.tested p = false := (Bool.or_eq_false_iff.1 hpasses).1
  have hslot : w'.tested.slot = w.tested.slot := by
    rw [hpolled.slot, hpasses, hlate]
    rfl
  constructor
  · rw [hslot, hpolled.everMet, hmet, Bool.or_false]
    exact hsound.passed
  · rw [hslot, hpolled.metSinceUpdate, hmet, Bool.or_false, hpolled.timedOut]
    intro hfailed
    obtain ⟨hunmet, htimedOut⟩ := hsound.failed hfailed
    exact ⟨hunmet, by rw [htimedOut, Bool.true_or]⟩

/-- Past its time, a server must go on meeting its criterion. -/
theorem staysMet_iff
    (hkept : Kept w)
    (hpending : w.tested.slot.state.teosTimerPending = true)
    (hmet : met clock w.tested p = false)
    (hout : outOfTime clock w.tested p = true) :
    StaysMet clock w p ↔ w.metSinceUpdate = false := by
  unfold StaysMet
  cases hserver : w.tested.slot.isServer with
  | false =>
      simp [hkept.unmet hserver hpending]
  | true =>
      simp [hout, hmet]

/-- The condition on a poll, with what it says of the assertions set apart. -/
theorem pollMeets_iff :
    PollMeets clock w p ↔
      ¬Asserts w.tested p ∧
        (isClUp w.tested.slot.cfg.tcCriteria = true →
          w.everMet = true ∨ met clock w.tested p = true) ∧
        (isClUp w.tested.slot.cfg.tcCriteria = false →
          isRunTime w.tested.slot.cfg.tcCriteria = false → StaysMet clock w p) := by
  unfold PollMeets Asserts met
  cases hcriteria : w.tested.slot.cfg.tcCriteria with
  | runTime n =>
      simp [isClUp, isRunTime]
  | srvUp n =>
      simp [isClUp, isRunTime]
  | clUp n =>
      simp [isClUp, or_comm]
  | clEstab n =>
      simp [isClUp, isRunTime, and_comm]
  | dataMbSent n =>
      simp
  | max =>
      simp

/-- For one poll, the verdict is sound and no assertion fails exactly under the condition. -/
theorem pollOk_iff_pollMeets
    (hkept : Kept w)
    (hpending : w.tested.slot.state.teosTimerPending = true) :
    StateOk (testEntryTmrCb clock w p others) ↔ PollMeets clock w p := by
  rw [pollMeets_iff]
  by_cases hasserts : Asserts w.tested p
  · simp [testEntryTmrCb_of_asserts hpending hasserts, StateOk, hasserts]
  obtain ⟨w', hstep, hpolled⟩ :=
    testEntryTmrCb_of_not_asserts clock others hpending hasserts
  rw [hstep]
  simp only [StateOk, hasserts, not_false_eq_true, true_and]
  cases hpasses : passes clock w.tested p with
  | true =>
      rw [hpolled.sound_of_passes hpasses]
      cases hclUp : isClUp w.tested.slot.cfg.tcCriteria with
      | true =>
          simp
      | false =>
          have hmet : met clock w.tested p = true := by
            rwa [passes, hclUp, Bool.or_false] at hpasses
          simp [StaysMet, hmet]
  | false =>
      obtain ⟨hmet, hclUp⟩ := Bool.or_eq_false_iff.1 hpasses
      cases hlate : isLate clock w.tested p with
      | true =>
          rw [hpolled.sound_of_late hpasses hlate]
          obtain ⟨hrun, hout⟩ := Bool.and_eq_true_iff.1 hlate
          rw [Bool.not_eq_true'] at hrun
          rw [← staysMet_iff hkept hpending hmet hout]
          simp [hclUp, hrun]
      | false =>
          simp only [hpolled.sound_of_open hpasses hlate hkept.sound, hclUp, true_iff]
          refine ⟨nofun, fun _ hrun _ hout => ?_⟩
          rw [isLate, hrun, hout] at hlate
          cases hlate

end Poll

/-! ## Every event -/

/-- The invariant of a run in which no assertion has failed. -/
def KeptState : Option Watched → Prop
  | none => False
  | some w => Kept w

section Events

variable {clock : Clock} {w : Watched}

theorem kept_of_polled
    {p : Poll} {w' : Watched}
    (hkept : Kept w)
    (hpending : w.tested.slot.state.teosTimerPending = true)
    (hpolled : Polled clock w p w')
    (hsound : Sound w') :
    Kept w' := by
  refine ⟨hsound, fun hserver hpending' => ?_⟩
  have hserver' : w.tested.slot.isServer = false := by
    rwa [hpolled.slot, Slot.isServer, updateStatus_cfg] at hserver
  rw [hpolled.slot] at hpending'
  cases hpasses : passes clock w.tested p with
  | true =>
      simp [hpasses, statusOf, updateStatus_passed, hserver', Slot.setTimer] at hpending'
  | false =>
      rw [hpolled.metSinceUpdate, hkept.unmet hserver' hpending,
        (Bool.or_eq_false_iff.1 hpasses).1, Bool.or_false]

theorem kept_checkStopped
    (hkept : Kept w)
    (done others : Bool) :
    Kept (w.checkStopped done others) := by
  refine ⟨⟨?_, ?_⟩, ?_⟩
  · rw [checkStopped_tested, checkStopped_everMet]
    exact hkept.sound.passed
  · rw [checkStopped_tested, checkStopped_metSinceUpdate, checkStopped_timedOut]
    exact hkept.sound.failed
  · rw [checkStopped_tested, checkStopped_metSinceUpdate]
    exact hkept.unmet

theorem kept_update
    (hkept : Kept w)
    (criteria : TestCriteria) :
    Kept (testMgmtUpdateTestCase w criteria) := by
  unfold testMgmtUpdateTestCase
  split_ifs with hrunning
  · exact hkept
  · exact ⟨⟨hkept.sound.passed, fun hfailed => ⟨rfl, (hkept.sound.failed hfailed).2⟩⟩,
      fun _ _ => rfl⟩

theorem kept_portStart
    (hkept : Kept w) :
    Kept (testStartCb w) := by
  unfold testStartCb
  split_ifs with hrunning
  · exact hkept
  · exact ⟨⟨hkept.sound.passed, hkept.sound.failed⟩, nofun⟩

theorem kept_start
    (hkept : Kept w)
    (now : Nat) :
    Kept (testStartTestCase w now) := by
  unfold testStartTestCase
  split_ifs with hrunning
  · exact ⟨⟨nofun, nofun⟩, fun _ _ => rfl⟩
  · exact hkept

/-- A test case that is stopped has no verdict, and its timer is off. -/
theorem kept_stop
    (hkept : Kept w) :
    Kept (testStopCb w) := by
  unfold testStopCb
  split_ifs with hrunning
  · unfold testStopTestCase
    split_ifs with hidle
    · exact ⟨⟨hkept.sound.passed, hkept.sound.failed⟩, nofun⟩
    · exact ⟨⟨nofun, nofun⟩, nofun⟩
  · exact hkept

/-- The verdict is sound after an event exactly when the event meets the condition. -/
theorem eventOk_iff_eventMeets
    (s : Option Watched) (event : Event)
    (hkept : KeptState s) :
    StateOk (step clock s event) ↔ EventMeets clock s event := by
  cases s with
  | none =>
      exact hkept.elim
  | some w =>
      cases event with
      | poll p others =>
          cases hpending : w.tested.slot.state.teosTimerPending with
          | false =>
              simp [step, testEntryTmrCb_of_not_pending hpending, StateOk, EventMeets, hpending,
                hkept.sound]
          | true =>
              simp [step, pollOk_iff_pollMeets hkept hpending, EventMeets, hpending]
      | othersDone =>
          exact iff_of_true (kept_checkStopped hkept true false).sound trivial
      | update criteria =>
          exact iff_of_true (kept_update hkept criteria).sound trivial
      | portStart =>
          exact iff_of_true (kept_portStart hkept).sound trivial
      | start now =>
          exact iff_of_true (kept_start hkept now).sound trivial
      | stop =>
          exact iff_of_true (kept_stop hkept).sound trivial

theorem step_kept
    (s : Option Watched) (event : Event)
    (hkept : KeptState s)
    (hok : StateOk (step clock s event)) :
    KeptState (step clock s event) := by
  cases s with
  | none =>
      exact hkept.elim
  | some w =>
      cases event with
      | poll p others =>
          cases hpending : w.tested.slot.state.teosTimerPending with
          | false =>
              simpa only [step, testEntryTmrCb_of_not_pending hpending] using hkept
          | true =>
              by_cases hasserts : Asserts w.tested p
              · simp only [step, testEntryTmrCb_of_asserts hpending hasserts, StateOk] at hok
              · obtain ⟨w', hstep, hpolled⟩ :=
                  testEntryTmrCb_of_not_asserts clock others hpending hasserts
                simp only [step, hstep] at hok ⊢
                exact kept_of_polled hkept hpending hpolled hok
      | othersDone =>
          exact kept_checkStopped hkept true false
      | update criteria =>
          exact kept_update hkept criteria
      | portStart =>
          exact kept_portStart hkept
      | start now =>
          exact kept_start hkept now
      | stop =>
          exact kept_stop hkept

theorem kept_configured
    (cfg : TestCase) :
    KeptState (some (configured cfg)) :=
  ⟨⟨nofun, nofun⟩, nofun⟩

end Events

/--
For every test case and every sequence of polls, updates, starts and stops: every verdict on the
way is sound and no assertion fails exactly when every poll meets the condition.
-/
theorem verdicts_ok
    (clock : Clock) (cfg : TestCase) (events : List Event) :
    Guarded (step clock) (fun s event => StateOk (step clock s event)) (some (configured cfg))
        events ↔
      Guarded (step clock) (EventMeets clock) (some (configured cfg)) events :=
  guarded_congr KeptState eventOk_iff_eventMeets step_kept (kept_configured cfg)

/-- A client test case with the criterion, on a machine that gives it two seconds. -/
def clientWith (criteria : TestCriteria) : Watched :=
  configured { clientCase 0 with tcCriteria := criteria }

def twoSeconds : Clock where
  cyclesPerUs := 1
  timerHz := 1000000
  gcfgTestMaxTcRuntime := 2000000

/-- Ten clients are asked for, none is up at the first poll, and the test case has passed. -/
theorem clUp_passesUnmet :
    ¬Guarded (step twoSeconds) (fun s event => StateOk (step twoSeconds s event))
      (some (clientWith (.clUp 10)))
      [.portStart, .start 100, .poll ⟨200, 0, 0, 0, 0⟩ false] := by
  rintro ⟨-, -, hok, -⟩
  have hever := hok.passed (by decide)
  exact absurd hever (by decide)

/-- The first poll of a criterion on the data sent fails an assertion. -/
example :
    run (step twoSeconds) (some (clientWith (.dataMbSent 1)))
      [.portStart, .start 100, .poll ⟨200, 0, 0, 0, 0⟩ false] = none := by
  decide

/-- So does the criterion of no established session, before the first packet. -/
example :
    run (step twoSeconds) (some (clientWith (.clEstab 0)))
      [.portStart, .start 100, .poll ⟨200, 0, 0, 0, 0⟩ false] = none := by
  decide

end TestVerdicts
end Warp17
