import Warp17.GuardedRuns
import Warp17.RateLimits

/-!
# The run messages of a test case

Opening, closing and sending are driven by messages that a core posts to its own ring: from the
insertion of a session into a list, from the rate timer at the start of an interval, and from
the handler itself while sessions and rate are left.  A flag for each operation says that its
message is under way, another that the rate of the interval is used up.

What runs inside a handler is the environment's: a handler takes its message out of the ring,
then its operations and the insertions and removals they cause follow one by one, and last the
rate is updated.  The ring has room.

**Results**
- `runMessages_ok`: in every run there is one message exactly when the flag says so, none is
  lost or doubled, and no interval executes more than its slot.
-/

namespace Warp17
namespace RunMessages

open RateLimits GuardedRuns

abbrev U32 := BitVec 32

universe u

/-- `test_run_msg_type_t` -/
inductive TestRunMsgType
  | trmtOpen
  | trmtClose
  | trmtSend
deriving DecidableEq, Repr

/-- `TRS_FLAGS_*_IN_PROGRESS` -/
def inProgressFlag : TestRunMsgType → U32
  | .trmtOpen => 0x00000001
  | .trmtClose => 0x00000004
  | .trmtSend => 0x00000010

/-- `TRS_FLAGS_*_RATE_REACHED` -/
def rateReachedFlag : TestRunMsgType → U32
  | .trmtOpen => 0x00000002
  | .trmtClose => 0x00000008
  | .trmtSend => 0x00000020

/-! ## The rate of an interval -/

def rateLimitReached (rl : RateLimit) : Bool :=
  rl.rlCurrentRate == 0

def rateLimitAdvanceInterval (rl : RateLimit) : RateLimit :=
  let rlCurrentIndex := (rl.rlCurrentIndex + 1) % rl.rlCount
  { rl with
    rlCurrentIndex := rlCurrentIndex
    rlCurrentRate := rl.rlSlots.getD rlCurrentIndex 0 }

def rateLimitAvailable (rl : RateLimit) : Nat :=
  if rl.rlMaxBurst ≤ rl.rlCurrentRate then rl.rlMaxBurst else rl.rlCurrentRate

/-- The subtraction is one of 32 bits. -/
def rateLimitConsume (rl : RateLimit) (count : Nat) : RateLimit :=
  { rl with
    rlCurrentRate :=
      if count ≤ rl.rlCurrentRate then rl.rlCurrentRate - count
      else rl.rlCurrentRate + 2 ^ 32 - count }

/-- `gcfg_rate_no_lim_interval_size` is the parameter. -/
def rateLimitIntervalUs (rateNoLimIntervalSize : Nat) (rl : RateLimit) : Nat :=
  if rl.rlCount = 0 then 0
  else if rl.rlCount = 1 ∧ rl.rlSlots.getD 0 0 = rateLimInfiniteVal then rateNoLimIntervalSize
  else 1000000 / rl.rlCount

/-! ## The state of a core -/

/-- A run message that is being handled: how many operations it may execute, and how many it has. -/
structure Handling where
  msgType : TestRunMsgType
  max : Nat
  cnt : Nat
deriving DecidableEq, Repr

/-- What a core keeps of a test case for its run messages. -/
structure RunState (σ : Type u) where
  /-- `trs_open`, `trs_close`, `trs_send` -/
  trsLimit : TestRunMsgType → RateLimit
  trsFlags : U32
  /-- `tos_to_open_cbs`, `tos_to_close_cbs`, `tos_to_send_cbs` -/
  tosCbs : TestRunMsgType → List σ
  /-- the run messages in the local ring -/
  ring : List TestRunMsgType
  handling : Option Handling
  /-- the rate timers that run -/
  timers : TestRunMsgType → Bool
  tciRunning : Bool
  tciStopping : Bool
  /-- whether the rate timer has fired; what follows is recorded as the events happen -/
  ticked : TestRunMsgType → Bool
  /-- the slot of the current interval -/
  slot : TestRunMsgType → Nat
  /-- the operations executed in the current interval -/
  executed : TestRunMsgType → Nat

variable {σ : Type u}

/-- After `test_case_init_state`, with the limits of `rate_limit_init`. -/
def initialState (limits : TestRunMsgType → RateLimit) : RunState σ where
  trsLimit := limits
  trsFlags := 0
  tosCbs _ := []
  ring := []
  handling := none
  timers _ := false
  tciRunning := false
  tciStopping := false
  ticked _ := false
  slot t := (limits t).rlCurrentRate
  executed _ := 0

/-- The message goes into the ring, and the result is always 0. -/
def testCaseRunMsg (t : TestRunMsgType) (s : RunState σ) : RunState σ :=
  { s with ring := s.ring ++ [t] }

def testReschedRunner (t : TestRunMsgType) (s : RunState σ) : RunState σ :=
  if s.trsFlags &&& (inProgressFlag t ||| rateReachedFlag t) ≠ 0 then s
  else
    let s := testCaseRunMsg t s
    { s with trsFlags := s.trsFlags ||| inProgressFlag t }

/-- `TEST_CBQ_ADD_TO_OPEN`, `TEST_CBQ_ADD_TO_CLOSE`, `TEST_CBQ_ADD_TO_SEND` -/
def testCbqAdd (t : TestRunMsgType) (cb : σ) (s : RunState σ) : RunState σ :=
  testReschedRunner t { s with tosCbs := Function.update s.tosCbs t (s.tosCbs t ++ [cb]) }

/-- `TEST_CBQ_ADD_TO_OPEN_NO_RESCHED` -/
def testCbqAddToOpenNoResched (cb : σ) (s : RunState σ) : RunState σ :=
  { s with tosCbs := Function.update s.tosCbs .trmtOpen (s.tosCbs .trmtOpen ++ [cb]) }

/-- `TEST_CBQ_REM_TO_OPEN`, `TEST_CBQ_REM_TO_CLOSE`, `TEST_CBQ_REM_TO_SEND` -/
def testCbqRem [DecidableEq σ] (t : TestRunMsgType) (cb : σ) (s : RunState σ) : RunState σ :=
  { s with tosCbs := Function.update s.tosCbs t ((s.tosCbs t).erase cb) }

/-- `test_case_tmr_cb` -/
def testCaseTmrCb (t : TestRunMsgType) (s : RunState σ) : RunState σ :=
  let rl := rateLimitAdvanceInterval (s.trsLimit t)
  testReschedRunner t
    { s with
      trsLimit := Function.update s.trsLimit t rl
      trsFlags := s.trsFlags &&& ~~~rateReachedFlag t }

/-- The handlers up to their loop: `rate_limit_available`. -/
def testCaseRunCb (t : TestRunMsgType) (s : RunState σ) : RunState σ :=
  { s with handling := some ⟨t, rateLimitAvailable (s.trsLimit t), 0⟩ }

/-- One turn of the loop of a handler; what it does to the lists comes as events of its own. -/
def testCaseOperation (h : Handling) (s : RunState σ) : RunState σ :=
  { s with handling := some { h with cnt := h.cnt + 1 } }

/-- The state, and whether the message goes back into the ring (`-EAGAIN`). -/
def testCaseRateLimitUpdate (t : TestRunMsgType) (consumed : Nat) (s : RunState σ) :
    RunState σ × Bool :=
  let rl := rateLimitConsume (s.trsLimit t) consumed
  let s := { s with trsLimit := Function.update s.trsLimit t rl }
  if !rateLimitReached rl then
    if (s.tosCbs t).isEmpty then ({ s with trsFlags := s.trsFlags &&& ~~~inProgressFlag t }, false)
    else (s, true)
  else
    ({ s with trsFlags := (s.trsFlags ||| rateReachedFlag t) &&& ~~~inProgressFlag t }, false)

/-- The end of a handler and of `msg_process`. -/
def testCaseRunDone (h : Handling) (s : RunState σ) : RunState σ :=
  let (s, again) := testCaseRateLimitUpdate h.msgType h.cnt { s with handling := none }
  if again then testCaseRunMsg h.msgType s else s

/-- `test_case_start_cb`: no timer is started for a rate of zero. -/
def testCaseStartCb (rateNoLimIntervalSize : Nat) (s : RunState σ) : RunState σ :=
  { s with
    timers := fun t => rateLimitIntervalUs rateNoLimIntervalSize (s.trsLimit t) != 0
    tciRunning := true }

/-- `test_case_rate_state_stop`; a rate of zero has no slots. -/
def testCaseStopCb (s : RunState σ) : RunState σ :=
  { s with
    timers := fun _ => false
    trsLimit := fun _ => rateLimitZero
    tciStopping := true }

/-! ## What is recorded -/

/-- The next interval of an operation begins: its slot is the one after the current one. -/
def recordTick (t : TestRunMsgType) (s : RunState σ) : RunState σ :=
  let rl := s.trsLimit t
  { s with
    ticked := Function.update s.ticked t true
    slot := Function.update s.slot t (rl.rlSlots.getD ((rl.rlCurrentIndex + 1) % rl.rlCount) 0)
    executed := Function.update s.executed t 0 }

/-- An operation is executed. -/
def recordOperation (t : TestRunMsgType) (s : RunState σ) : RunState σ :=
  { s with executed := Function.update s.executed t (s.executed t + 1) }

/-! ## Events -/

/-- What can happen on the core, one after the other. -/
inductive RunEvent (σ : Type u)
  | add (t : TestRunMsgType) (cb : σ)
  | addNoResched (cb : σ)
  | rem (t : TestRunMsgType) (cb : σ)
  | tick (t : TestRunMsgType)
  | handle
  | operate
  | done
  | start
  | stop
deriving DecidableEq, Repr

/-- Timers, messages, start and stop come between handlers; the first insertions before the
start. -/
def runStep [DecidableEq σ] (rateNoLimIntervalSize : Nat) (s : RunState σ) :
    RunEvent σ → RunState σ
  | .add t cb => testCbqAdd t cb s
  | .addNoResched cb => if s.tciRunning then s else testCbqAddToOpenNoResched cb s
  | .rem t cb => testCbqRem t cb s
  | .tick t => if s.handling.isNone ∧ s.timers t then testCaseTmrCb t (recordTick t s) else s
  | .handle =>
      match s.handling, s.ring with
      | none, t :: ring => testCaseRunCb t { s with ring := ring }
      | _, _ => s
  | .operate =>
      match s.handling with
      | some h =>
          if s.tosCbs h.msgType ≠ [] ∧ h.cnt < h.max then
            testCaseOperation h (recordOperation h.msgType s)
          else s
      | none => s
  | .done =>
      match s.handling with
      | some h => if s.tosCbs h.msgType ≠ [] ∧ h.cnt < h.max then s else testCaseRunDone h s
      | none => s
  | .start =>
      if s.handling.isNone ∧ ¬ s.tciRunning then testCaseStartCb rateNoLimIntervalSize s else s
  | .stop => if s.handling.isNone ∧ s.tciRunning then testCaseStopCb s else s

/-! ## Flags -/

/-- The operation's message is marked as under way. -/
def InProgress (flags : U32) (t : TestRunMsgType) : Prop :=
  flags &&& inProgressFlag t ≠ 0

/-- The operation's rate is marked as used up. -/
def RateReached (flags : U32) (t : TestRunMsgType) : Prop :=
  flags &&& rateReachedFlag t ≠ 0

section Flags

variable {flags : U32} {t t' : TestRunMsgType}

theorem and_or_ne_zero
    (x f g : U32) :
    x &&& (f ||| g) ≠ 0 ↔ x &&& f ≠ 0 ∨ x &&& g ≠ 0 := by
  rw [BitVec.and_or_distrib_left, ← not_and_or, not_iff_not]
  exact BitVec.or_eq_zero_iff

theorem or_and_ne_zero
    (x f g : U32) :
    (x ||| f) &&& g ≠ 0 ↔ x &&& g ≠ 0 ∨ f &&& g ≠ 0 := by
  rw [BitVec.and_comm, and_or_ne_zero, BitVec.and_comm g x, BitVec.and_comm g f]

theorem clear_and
    (x f g : U32) :
    x &&& ~~~f &&& g = x &&& (g &&& ~~~f) := by
  rw [BitVec.and_assoc, BitVec.and_comm g]

theorem inProgress_setInProgress :
    InProgress (flags ||| inProgressFlag t) t' ↔ InProgress flags t' ∨ t' = t := by
  rw [InProgress, or_and_ne_zero, InProgress]
  have hbit : inProgressFlag t &&& inProgressFlag t' ≠ 0 ↔ t' = t := by
    cases t <;> cases t' <;> decide
  rw [hbit]

theorem rateReached_setInProgress :
    RateReached (flags ||| inProgressFlag t) t' ↔ RateReached flags t' := by
  rw [RateReached, or_and_ne_zero, RateReached]
  have hbit : inProgressFlag t &&& rateReachedFlag t' = 0 := by
    cases t <;> cases t' <;> decide
  simp [hbit]

theorem inProgress_setReached :
    InProgress (flags ||| rateReachedFlag t) t' ↔ InProgress flags t' := by
  rw [InProgress, or_and_ne_zero, InProgress]
  have hbit : rateReachedFlag t &&& inProgressFlag t' = 0 := by
    cases t <;> cases t' <;> decide
  simp [hbit]

theorem rateReached_setReached :
    RateReached (flags ||| rateReachedFlag t) t' ↔ RateReached flags t' ∨ t' = t := by
  rw [RateReached, or_and_ne_zero, RateReached]
  have hbit : rateReachedFlag t &&& rateReachedFlag t' ≠ 0 ↔ t' = t := by
    cases t <;> cases t' <;> decide
  rw [hbit]

theorem inProgress_clearInProgress :
    InProgress (flags &&& ~~~inProgressFlag t) t' ↔ InProgress flags t' ∧ t' ≠ t := by
  rw [InProgress, clear_and, InProgress]
  have hbit : inProgressFlag t' &&& ~~~inProgressFlag t =
      if t' = t then 0 else inProgressFlag t' := by
    cases t <;> cases t' <;> decide
  rw [hbit]
  by_cases heq : t' = t <;> simp [heq]

theorem rateReached_clearInProgress :
    RateReached (flags &&& ~~~inProgressFlag t) t' ↔ RateReached flags t' := by
  rw [RateReached, clear_and, RateReached]
  have hbit : rateReachedFlag t' &&& ~~~inProgressFlag t = rateReachedFlag t' := by
    cases t <;> cases t' <;> decide
  rw [hbit]

theorem inProgress_clearReached :
    InProgress (flags &&& ~~~rateReachedFlag t) t' ↔ InProgress flags t' := by
  rw [InProgress, clear_and, InProgress]
  have hbit : inProgressFlag t' &&& ~~~rateReachedFlag t = inProgressFlag t' := by
    cases t <;> cases t' <;> decide
  rw [hbit]

theorem rateReached_clearReached :
    RateReached (flags &&& ~~~rateReachedFlag t) t' ↔ RateReached flags t' ∧ t' ≠ t := by
  rw [RateReached, clear_and, RateReached]
  have hbit : rateReachedFlag t' &&& ~~~rateReachedFlag t =
      if t' = t then 0 else rateReachedFlag t' := by
    cases t <;> cases t' <;> decide
  rw [hbit]
  by_cases heq : t' = t <;> simp [heq]

end Flags

/-! ## The invariant -/

/-- The messages of an operation that are in the ring or being handled. -/
def pending (s : RunState σ) (t : TestRunMsgType) : Nat :=
  s.ring.count t + (s.handling.toList.map (·.msgType)).count t

/-- The operations of the running handler that the rate does not know of yet. -/
def unconsumed (s : RunState σ) (t : TestRunMsgType) : Nat :=
  ((s.handling.toList.filter (·.msgType = t)).map (·.cnt)).sum

/-- Where the operations in `awake` have a message when there is something to do. -/
structure RunInv (awake : TestRunMsgType → Prop) (s : RunState σ) : Prop where
  pending_flag : ∀ t, (InProgress s.trsFlags t ∧ pending s t = 1) ∨
    (¬ InProgress s.trsFlags t ∧ pending s t = 0)
  reached : ∀ t, RateReached s.trsFlags t → (s.trsLimit t).rlCurrentRate = 0
  awake : ∀ t, awake t → s.ticked t = true → s.tciStopping = false → s.tosCbs t ≠ [] →
    (s.trsLimit t).rlCurrentRate ≠ 0 → InProgress s.trsFlags t
  budget : ∀ t, s.executed t + (s.trsLimit t).rlCurrentRate ≤ s.slot t + unconsumed s t
  handling : ∀ h, s.handling = some h →
    h.cnt ≤ h.max ∧ h.max = rateLimitAvailable (s.trsLimit h.msgType)
  slot : s.tciStopping = false → ∀ t,
    s.slot t = (s.trsLimit t).rlSlots.getD (s.trsLimit t).rlCurrentIndex 0
  timers : ∀ t, s.timers t = true → (s.trsLimit t).rlCount ≠ 0
  running : ∀ t, s.timers t = true ∨ s.ticked t = true → s.tciRunning = true

section Invariant

variable {s : RunState σ} {t : TestRunMsgType} {awake : TestRunMsgType → Prop}

theorem rateLimitAvailable_le
    (rl : RateLimit) :
    rateLimitAvailable rl ≤ rl.rlCurrentRate := by
  rw [rateLimitAvailable]
  split <;> omega

theorem testCaseRunMsg_pending
    (t' : TestRunMsgType) :
    pending (testCaseRunMsg t s) t' = pending s t' + if t = t' then 1 else 0 := by
  simp only [pending, testCaseRunMsg, List.count_append, List.count_singleton, beq_iff_eq]
  omega

/-- A runner that is called for an operation keeps it awake. -/
theorem testReschedRunner_inv
    (h : RunInv (· ≠ t) s) :
    RunInv (fun _ => True) (testReschedRunner t s) := by
  rw [testReschedRunner]
  split
  · rename_i hbusy
    refine ⟨h.pending_flag, h.reached, ?_, h.budget, h.handling, h.slot, h.timers,
      h.running⟩
    intro t' _ hticked hrunning hcbs hrate
    by_cases ht : t' = t
    · -- the rate is not used up, so the message is under way
      obtain rfl := ht
      rcases (and_or_ne_zero _ _ _).1 hbusy with hbusy | hbusy
      · exact hbusy
      · exact absurd (h.reached t' hbusy) hrate
    · exact h.awake t' ht hticked hrunning hcbs hrate
  · rename_i hidle
    have hidle' : ¬ InProgress s.trsFlags t :=
      fun hset => hidle ((and_or_ne_zero _ _ _).2 (.inl hset))
    refine ⟨fun t' => ?_, fun t' hreached => ?_, fun t' _ hticked hrunning hcbs hrate => ?_,
      h.budget, h.handling, h.slot, h.timers,
      h.running⟩
    · have hpending : pending { testCaseRunMsg t s with
          trsFlags := (testCaseRunMsg t s).trsFlags ||| inProgressFlag t } t' =
          pending (testCaseRunMsg t s) t' := rfl
      rw [hpending, testCaseRunMsg_pending]
      have hflag := h.pending_flag t'
      simp only [testCaseRunMsg, inProgress_setInProgress]
      by_cases ht : t' = t
      · obtain rfl := ht
        rw [if_pos rfl]
        rcases hflag with ⟨hset, -⟩ | ⟨-, hnone⟩
        · exact absurd hset hidle'
        · exact .inl ⟨.inr rfl, by omega⟩
      · rw [if_neg (Ne.symm ht), Nat.add_zero]
        simpa only [ht, or_false] using hflag
    · exact h.reached t' (rateReached_setInProgress.1 hreached)
    · simp only [testCaseRunMsg, inProgress_setInProgress]
      by_cases ht : t' = t
      · exact .inr ht
      · exact .inl (h.awake t' ht hticked hrunning hcbs hrate)

theorem testCbqAdd_inv
    (cb : σ) (h : RunInv (fun _ => True) s) :
    RunInv (fun _ => True) (testCbqAdd t cb s) := by
  refine testReschedRunner_inv ⟨h.pending_flag, h.reached, ?_, h.budget, h.handling, h.slot,
    h.timers, h.running⟩
  intro t' ht hticked hrunning hcbs hrate
  dsimp only at hcbs
  rw [Function.update_of_ne ht] at hcbs
  exact h.awake t' trivial hticked hrunning hcbs hrate

theorem testCbqRem_inv [DecidableEq σ]
    (cb : σ) (h : RunInv (fun _ => True) s) :
    RunInv (fun _ => True) (testCbqRem t cb s) := by
  refine ⟨h.pending_flag, h.reached, ?_, h.budget, h.handling, h.slot, h.timers, h.running⟩
  intro t' _ hticked hrunning hcbs hrate
  refine h.awake t' trivial hticked hrunning (fun hempty => hcbs ?_) hrate
  dsimp only [testCbqRem]
  by_cases ht : t' = t
  · obtain rfl := ht
    rw [Function.update_self, hempty]
    rfl
  · rwa [Function.update_of_ne ht]

/-- No timer has fired before the start, so nothing has to be awake. -/
theorem testCbqAddToOpenNoResched_inv
    (cb : σ) (hidle : s.tciRunning = false)
    (h : RunInv (fun _ => True) s) :
    RunInv (fun _ => True) (testCbqAddToOpenNoResched cb s) := by
  refine ⟨h.pending_flag, h.reached, ?_, h.budget, h.handling, h.slot, h.timers, h.running⟩
  intro t' _ hticked
  have hrunning := h.running t' (.inr hticked)
  rw [hidle] at hrunning
  cases hrunning

theorem testCaseTmrCb_inv
    (hnone : s.handling = none) (htimer : s.timers t = true)
    (h : RunInv (fun _ => True) s) :
    RunInv (fun _ => True) (testCaseTmrCb t (recordTick t s)) := by
  refine testReschedRunner_inv ⟨fun t' => ?_, fun t' hreached => ?_, fun t' ht hticked hrunning
    hcbs hrate => ?_, fun t' => ?_, fun h' hh => ?_, fun hrunning t' => ?_, fun t' ht => ?_,
    fun t' ht => ?_⟩
  · rw [inProgress_clearReached]
    exact h.pending_flag t'
  · obtain ⟨hreached, ht⟩ := rateReached_clearReached.1 hreached
    dsimp only
    rw [Function.update_of_ne ht]
    exact h.reached t' hreached
  · dsimp only [recordTick] at hticked hrate
    rw [Function.update_of_ne ht] at hticked hrate
    exact inProgress_clearReached.2 (h.awake t' trivial hticked hrunning hcbs hrate)
  · dsimp only [recordTick]
    by_cases ht : t' = t
    · obtain rfl := ht
      rw [Function.update_self, Function.update_self, Function.update_self]
      simp only [rateLimitAdvanceInterval]
      omega
    · rw [Function.update_of_ne ht, Function.update_of_ne ht, Function.update_of_ne ht]
      exact h.budget t'
  · have hh' : s.handling = some h' := hh
    rw [hnone] at hh'
    cases hh'
  · dsimp only [recordTick]
    by_cases ht : t' = t
    · obtain rfl := ht
      rw [Function.update_self, Function.update_self]
      rfl
    · rw [Function.update_of_ne ht, Function.update_of_ne ht]
      exact h.slot hrunning t'
  · dsimp only [recordTick]
    by_cases htt : t' = t
    · obtain rfl := htt
      rw [Function.update_self]
      exact h.timers t' ht
    · rw [Function.update_of_ne htt]
      exact h.timers t' ht
  · exact h.running t (.inl htimer)

/-- The message leaves the ring for the handler. -/
theorem testCaseRunCb_inv
    {ring : List TestRunMsgType}
    (hnone : s.handling = none) (hring : s.ring = t :: ring)
    (h : RunInv (fun _ => True) s) :
    RunInv (fun _ => True) (testCaseRunCb t { s with ring := ring }) := by
  refine ⟨fun t' => ?_, h.reached, h.awake, fun t' => ?_, fun h' hh => ?_, h.slot, h.timers,
    h.running⟩
  · have hpending : pending (testCaseRunCb t { s with ring := ring }) t' = pending s t' := by
      rw [pending, pending, hnone, hring, List.count_cons]
      simp [testCaseRunCb, List.count_singleton]
    rw [hpending]
    exact h.pending_flag t'
  · have hunconsumed :
        unconsumed (testCaseRunCb t { s with ring := ring }) t' = unconsumed s t' := by
      rw [unconsumed, unconsumed, hnone]
      by_cases ht : t = t' <;> simp [testCaseRunCb, ht]
    rw [hunconsumed]
    exact h.budget t'
  · obtain rfl := Option.some.inj hh
    exact ⟨Nat.zero_le _, rfl⟩

theorem testCaseOperation_inv
    {m : Handling}
    (hsome : s.handling = some m) (hcnt : m.cnt < m.max)
    (h : RunInv (fun _ => True) s) :
    RunInv (fun _ => True) (testCaseOperation m (recordOperation m.msgType s)) := by
  refine ⟨fun t' => ?_, h.reached, h.awake, fun t' => ?_, fun h' hh => ?_, h.slot, h.timers,
    h.running⟩
  · have hpending :
        pending (testCaseOperation m (recordOperation m.msgType s)) t' = pending s t' := by
      rw [pending, pending, hsome]
      rfl
    rw [hpending]
    exact h.pending_flag t'
  · have hbudget := h.budget t'
    rw [unconsumed, hsome] at hbudget
    rw [unconsumed]
    by_cases ht : t' = m.msgType
    · obtain rfl := ht
      simp [testCaseOperation, recordOperation] at hbudget ⊢
      omega
    · simp [testCaseOperation, recordOperation, Function.update_of_ne ht, Ne.symm ht] at hbudget ⊢
      omega
  · obtain rfl := Option.some.inj hh
    have hmax := (h.handling m hsome).2
    exact ⟨hcnt, hmax⟩

theorem testCaseStartCb_inv
    (rateNoLimIntervalSize : Nat)
    (h : RunInv (fun _ => True) s) :
    RunInv (fun _ => True) (testCaseStartCb rateNoLimIntervalSize s) := by
  refine ⟨h.pending_flag, h.reached, h.awake, h.budget, h.handling, h.slot, fun t' ht hzero => ?_,
    fun _ _ => rfl⟩
  have hzero' : (s.trsLimit t').rlCount = 0 := hzero
  simp [testCaseStartCb, rateLimitIntervalUs, hzero'] at ht

theorem testCaseStopCb_inv
    (hnone : s.handling = none) (hrunning : s.tciRunning = true)
    (h : RunInv (fun _ => True) s) :
    RunInv (fun _ => True) (testCaseStopCb s) := by
  refine ⟨h.pending_flag, fun _ _ => rfl, fun t' _ _ hstop => ?_, fun t' => ?_, fun h' hh => ?_,
    fun hstop => ?_, fun t' ht => ?_, fun _ _ => hrunning⟩
  · cases hstop
  · have hbudget := h.budget t'
    have hzero : ((testCaseStopCb s).trsLimit t').rlCurrentRate = 0 := rfl
    rw [hzero]
    exact (Nat.add_le_add_left (Nat.zero_le _) _).trans hbudget
  · have hh' : s.handling = some h' := hh
    rw [hnone] at hh'
    cases hh'
  · cases hstop
  · cases ht

/-- What the end of a handler leaves, for any flags and ring that keep the book of messages. -/
theorem testCaseRunDone_inv_of
    {m : Handling} {flags : U32} {ring : List TestRunMsgType}
    (hsome : s.handling = some m)
    (h : RunInv (fun _ => True) s)
    (hpending : ∀ t, (InProgress flags t ∧ ring.count t = 1) ∨
      (¬ InProgress flags t ∧ ring.count t = 0))
    (hreached : ∀ t, RateReached flags t → RateReached s.trsFlags t ∨
      t = m.msgType ∧ (s.trsLimit t).rlCurrentRate = m.cnt)
    (hawake : ∀ t, InProgress s.trsFlags t → ¬ InProgress flags t →
      t = m.msgType ∧ (s.tosCbs t = [] ∨ (s.trsLimit t).rlCurrentRate = m.cnt)) :
    RunInv (fun _ => True)
      { s with
        handling := none
        trsLimit := Function.update s.trsLimit m.msgType
          (rateLimitConsume (s.trsLimit m.msgType) m.cnt)
        trsFlags := flags
        ring := ring } := by
  obtain ⟨hcnt, hmax⟩ := h.handling m hsome
  have hle : m.cnt ≤ (s.trsLimit m.msgType).rlCurrentRate :=
    hcnt.trans (hmax ▸ rateLimitAvailable_le _)
  have hrate : (rateLimitConsume (s.trsLimit m.msgType) m.cnt).rlCurrentRate =
      (s.trsLimit m.msgType).rlCurrentRate - m.cnt := if_pos hle
  refine ⟨fun t => ?_, fun t ht => ?_, fun t _ hticked hrunning hcbs hrate' => ?_, fun t => ?_,
    fun h' hh => ?_, fun hrunning t => ?_, fun t ht => ?_, h.running⟩
  · exact hpending t
  · dsimp only
    by_cases htm : t = m.msgType
    · obtain rfl := htm
      rw [Function.update_self, hrate]
      rcases hreached _ ht with hreached | ⟨-, hused⟩
      · have hzero := h.reached _ hreached
        omega
      · omega
    · rw [Function.update_of_ne htm]
      rcases hreached t ht with hreached | ⟨htm', -⟩
      · exact h.reached t hreached
      · exact absurd htm' htm
  · dsimp only at hticked hrunning hcbs hrate' ⊢
    by_contra hidle
    by_cases htm : t = m.msgType
    · obtain rfl := htm
      rw [Function.update_self, hrate] at hrate'
      have hbusy := h.awake _ trivial hticked hrunning hcbs (by omega)
      rcases (hawake _ hbusy hidle).2 with hempty | hused
      · exact hcbs hempty
      · omega
    · rw [Function.update_of_ne htm] at hrate'
      exact htm (hawake t (h.awake t trivial hticked hrunning hcbs hrate') hidle).1
  · have hbudget := h.budget t
    rw [unconsumed, hsome] at hbudget
    dsimp only [unconsumed]
    by_cases htm : t = m.msgType
    · obtain rfl := htm
      rw [Function.update_self, hrate]
      simp at hbudget ⊢
      omega
    · rw [Function.update_of_ne htm]
      simp [Ne.symm htm] at hbudget ⊢
      exact hbudget
  · cases hh
  · dsimp only
    by_cases htm : t = m.msgType
    · obtain rfl := htm
      rw [Function.update_self]
      exact h.slot hrunning _
    · rw [Function.update_of_ne htm]
      exact h.slot hrunning t
  · dsimp only
    by_cases htm : t = m.msgType
    · obtain rfl := htm
      rw [Function.update_self]
      exact h.timers _ ht
    · rw [Function.update_of_ne htm]
      exact h.timers t ht

/-- The message goes back into the ring exactly when sessions and rate are left. -/
theorem testCaseRunDone_inv
    {m : Handling}
    (hsome : s.handling = some m)
    (h : RunInv (fun _ => True) s) :
    RunInv (fun _ => True) (testCaseRunDone m s) := by
  obtain ⟨hcnt, hmax⟩ := h.handling m hsome
  have hle : m.cnt ≤ (s.trsLimit m.msgType).rlCurrentRate :=
    hcnt.trans (hmax ▸ rateLimitAvailable_le _)
  have hrate : (rateLimitConsume (s.trsLimit m.msgType) m.cnt).rlCurrentRate =
      (s.trsLimit m.msgType).rlCurrentRate - m.cnt := if_pos hle
  have hcount : ∀ t, pending s t = s.ring.count t + if t = m.msgType then 1 else 0 := by
    intro t
    rw [pending, hsome]
    simp [List.count_singleton, eq_comm (a := t)]
  -- the handled message is the operation's only one
  have hring : ∀ t, (InProgress (s.trsFlags &&& ~~~inProgressFlag m.msgType) t ∧
      s.ring.count t = 1) ∨ (¬ InProgress (s.trsFlags &&& ~~~inProgressFlag m.msgType) t ∧
        s.ring.count t = 0) := by
    intro t
    have hflag := h.pending_flag t
    rw [hcount] at hflag
    rw [inProgress_clearInProgress]
    by_cases ht : t = m.msgType
    · rw [if_pos ht] at hflag
      exact .inr ⟨fun hset => hset.2 ht, by omega⟩
    · rw [if_neg ht, Nat.add_zero] at hflag
      simpa [ht] using hflag
  cases hreached : rateLimitReached (rateLimitConsume (s.trsLimit m.msgType) m.cnt) with
  | true =>
      have hused : (s.trsLimit m.msgType).rlCurrentRate - m.cnt = 0 := by
        rwa [rateLimitReached, hrate, beq_iff_eq] at hreached
      simp only [testCaseRunDone, testCaseRateLimitUpdate, hreached, Bool.not_true,
        Bool.false_eq_true, if_false]
      refine testCaseRunDone_inv_of hsome h (fun t => ?_) (fun t ht => ?_) (fun t _ hidle => ?_)
      · have hboth := hring t
        rw [inProgress_clearInProgress] at hboth ⊢
        rwa [inProgress_setReached]
      · rw [rateReached_clearInProgress, rateReached_setReached] at ht
        exact ht.imp_right fun htm => ⟨htm, by rw [htm]; omega⟩
      · rw [inProgress_clearInProgress, inProgress_setReached] at hidle
        have htm : t = m.msgType := by
          by_contra hne
          exact hidle ⟨‹_›, hne⟩
        exact ⟨htm, .inr (by rw [htm]; omega)⟩
  | false =>
      cases hempty : (s.tosCbs m.msgType).isEmpty with
      | true =>
          simp only [testCaseRunDone, testCaseRateLimitUpdate, hreached, hempty, Bool.not_false,
            Bool.false_eq_true, if_true, if_false]
          refine testCaseRunDone_inv_of hsome h hring (fun t ht => ?_) (fun t hbusy hidle => ?_)
          · exact .inl (rateReached_clearInProgress.1 ht)
          · rw [inProgress_clearInProgress] at hidle
            have htm : t = m.msgType := by
              by_contra hne
              exact hidle ⟨hbusy, hne⟩
            exact ⟨htm, .inl (by rw [htm]; exact List.isEmpty_iff.1 hempty)⟩
      | false =>
          simp only [testCaseRunDone, testCaseRateLimitUpdate, hreached, hempty, Bool.not_false,
            Bool.false_eq_true, if_true, if_false, testCaseRunMsg]
          refine testCaseRunDone_inv_of hsome h (fun t => ?_) (fun t ht => .inl ht)
            (fun t hbusy hidle => absurd hbusy hidle)
          have hflag := h.pending_flag t
          rw [hcount] at hflag
          have hback : (s.ring ++ [m.msgType]).count t =
              s.ring.count t + if t = m.msgType then 1 else 0 := by
            rw [List.count_append, List.count_singleton]
            simp [eq_comm (a := t)]
          rwa [hback]

end Invariant

/-! ## Runs -/

/-- The limits that `rate_limit_init` leaves for some configuration, which has a slot at least. -/
def Initialised (rl : RateLimit) : Prop :=
  ∃ fuel memory cfg displacement desired maxBurst init, 0 < cfg.rlcCount ∧
    rateLimitInit fuel memory cfg displacement desired maxBurst = some init ∧ init.rl = rl

theorem Initialised.rlCurrentRate_eq
    {rl : RateLimit}
    (h : Initialised rl) :
    rl.rlCurrentRate = rl.rlSlots.getD rl.rlCurrentIndex 0 := by
  obtain ⟨fuel, memory, cfg, displacement, desired, maxBurst, init, hslots, hinit, rfl⟩ := h
  unfold rateLimitInit at hinit
  split at hinit
  · cases hinit
    rfl
  split at hinit
  · cases hinit
    rfl
  split at hinit
  · cases hinit
    obtain ⟨x, xs, hcons⟩ := List.exists_cons_of_length_pos
      (show 0 < (List.replicate cfg.rlcCount 0).length by rwa [List.length_replicate])
    simp only [unlimitedRate, hcons]
    rfl
  · rw [Option.bind_eq_bind, Option.bind_eq_some_iff] at hinit
    obtain ⟨s, -, hinit⟩ := hinit
    cases hinit
    rfl

/-- What holds between any two things that happen on the core. -/
structure RunMessagesOk (s : RunState σ) : Prop where
  /-- no operation has two messages -/
  one : ∀ t, pending s t ≤ 1
  /-- and it has one exactly when its flag is set -/
  flag : ∀ t, pending s t = 1 ↔ InProgress s.trsFlags t
  /-- no message is lost -/
  awake : ∀ t, s.ticked t = true → s.tciStopping = false → s.tosCbs t ≠ [] →
    rateLimitReached (s.trsLimit t) = false → pending s t = 1
  /-- what a handler will consume is available -/
  consumed : ∀ h, s.handling = some h →
    h.cnt ≤ rateLimitAvailable (s.trsLimit h.msgType) ∧
      h.cnt ≤ (s.trsLimit h.msgType).rlCurrentRate
  /-- no interval executes more than its slot -/
  executed : ∀ t, s.executed t ≤ s.slot t
  /-- which is the one of the array that the index is at -/
  slot : s.tciStopping = false → ∀ t,
    s.slot t = (s.trsLimit t).rlSlots.getD (s.trsLimit t).rlCurrentIndex 0
  /-- a timer that runs has a slot to advance to -/
  timers : ∀ t, s.timers t = true → (s.trsLimit t).rlCount ≠ 0

theorem initialState_inv
    {limits : TestRunMsgType → RateLimit}
    (hlimits : ∀ t, Initialised (limits t)) :
    RunInv (fun _ => True) (initialState limits : RunState σ) where
  pending_flag t := .inr ⟨by simp [InProgress, initialState], rfl⟩
  reached t ht := by simp [RateReached, initialState] at ht
  awake t _ hticked := by cases hticked
  budget t := by simp [initialState, unconsumed]
  handling h hh := by cases hh
  slot _ t := (hlimits t).rlCurrentRate_eq
  timers t ht := by cases ht
  running t ht := by rcases ht with ht | ht <;> cases ht

/-- One thing after the other: the cases are the events. -/
theorem runStep_inv
    [DecidableEq σ] (rateNoLimIntervalSize : Nat) (s : RunState σ) (event : RunEvent σ)
    (h : RunInv (fun _ => True) s) :
    RunInv (fun _ => True) (runStep rateNoLimIntervalSize s event) := by
  cases event with
  | add t cb =>
      exact testCbqAdd_inv cb h
  | addNoResched cb =>
      cases hrunning : s.tciRunning with
      | true =>
          simpa only [runStep, hrunning, if_true] using h
      | false =>
          simpa only [runStep, hrunning, Bool.false_eq_true, if_false] using
            testCbqAddToOpenNoResched_inv cb hrunning h
  | rem t cb =>
      exact testCbqRem_inv cb h
  | tick t =>
      rw [runStep]
      split
      · rename_i hready
        exact testCaseTmrCb_inv (Option.isNone_iff_eq_none.1 hready.1) hready.2 h
      · exact h
  | handle =>
      rw [runStep]
      split
      · rename_i t ring hnone hring
        exact testCaseRunCb_inv hnone hring h
      · exact h
  | operate =>
      rw [runStep]
      split
      · rename_i m hsome
        split
        · rename_i hready
          exact testCaseOperation_inv hsome hready.2 h
        · exact h
      · exact h
  | done =>
      rw [runStep]
      split
      · rename_i m hsome
        split
        · exact h
        · exact testCaseRunDone_inv hsome h
      · exact h
  | start =>
      rw [runStep]
      split
      · exact testCaseStartCb_inv rateNoLimIntervalSize h
      · exact h
  | stop =>
      rw [runStep]
      split
      · rename_i hready
        exact testCaseStopCb_inv (Option.isNone_iff_eq_none.1 hready.1) hready.2 h
      · exact h

/-- In every run of a test case on a core each operation has one message exactly when its flag
says so, none is lost, and no interval executes more than its slot. -/
theorem runMessages_ok
    [DecidableEq σ] (rateNoLimIntervalSize : Nat) (limits : TestRunMsgType → RateLimit)
    (hlimits : ∀ t, Initialised (limits t))
    (events : List (RunEvent σ)) :
    RunMessagesOk (run (runStep rateNoLimIntervalSize) (initialState limits) events) := by
  have h := run_invariant_always (RunInv fun _ => True) (runStep_inv rateNoLimIntervalSize) events
    (initialState_inv hlimits)
  generalize run (runStep rateNoLimIntervalSize) (initialState limits) events = s at h
  refine ⟨fun t => ?_, fun t => ?_, fun t hticked hrunning hcbs hrate => ?_, fun m hm => ?_,
    fun t => ?_, h.slot, h.timers⟩
  · rcases h.pending_flag t with ⟨-, hone⟩ | ⟨-, hnone⟩ <;> omega
  · rcases h.pending_flag t with ⟨hset, hone⟩ | ⟨hunset, hnone⟩
    · exact iff_of_true hone hset
    · exact iff_of_false (by omega) hunset
  · have hset := h.awake t trivial hticked hrunning hcbs (by simpa [rateLimitReached] using hrate)
    rcases h.pending_flag t with ⟨-, hone⟩ | ⟨hunset, -⟩
    · exact hone
    · exact absurd hset hunset
  · obtain ⟨hcnt, hmax⟩ := h.handling m hm
    rw [hmax] at hcnt
    exact ⟨hcnt, hcnt.trans (rateLimitAvailable_le _)⟩
  · have hbudget := h.budget t
    -- what the rate does not know of yet is available
    have hunconsumed : unconsumed s t ≤ (s.trsLimit t).rlCurrentRate := by
      rw [unconsumed]
      cases hm : s.handling with
      | none =>
          exact Nat.zero_le _
      | some m =>
          obtain ⟨hcnt, hmax⟩ := h.handling m hm
          rw [hmax] at hcnt
          by_cases ht : m.msgType = t
          · obtain rfl := ht
            simpa using hcnt.trans (rateLimitAvailable_le _)
          · simp [ht]
    omega

/-- Two operations a second, one in each interval. -/
def twoASecond : RateLimit :=
  ⟨1, 2, 0, 1, [1, 1]⟩

theorem twoASecond_initialised :
    Initialised twoASecond :=
  ⟨20, true, ⟨2, [1, 1]⟩, 1, 2, 1, ⟨0, twoASecond, ⟨2, [0, 0]⟩⟩, by decide, by decide +kernel, rfl⟩

/-- Two sessions, of which the first interval of the timer opens one. -/
def openOne : List (RunEvent Nat) :=
  [.addNoResched 0, .addNoResched 1, .start, .tick .trmtOpen, .handle, .operate, .rem .trmtOpen 0,
    .done]

theorem runMessages_ok_openOne :
    RunMessagesOk (run (runStep 1000) (initialState fun _ => twoASecond) openOne) :=
  runMessages_ok 1000 (fun _ => twoASecond) (fun _ => twoASecond_initialised) openOne

end RunMessages
end Warp17
