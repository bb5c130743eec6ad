import Warp17.ManagementApi
import Warp17.TestStateMachine
import Warp17.TimerExpiry

/-!
# Configured delays and their timers

A core that runs client sessions: every session has a state of the test state machine, and the
machine arms the test timer of the session when it enters a state with a delay: the initial
delay in `TSTS_CL_TO_INIT`, the uptime in `TSTS_CL_OPEN` (which it keeps while the session sends
or waits for window) and the downtime in `TSTS_CL_CLOSED`.  The timer sits on the wheel of the
core, which fires it from `time_advance` as `TSTE_TMR_TO`.

The walks of `tpg_time_wheel_advance` are repeated here with the sessions beside the timers,
since what an expiry does depends on the state of its session; `timeAdvanceCore_sim` says that
the timers move exactly as they do without them.  The slow and retransmission timers are the TCP
layer's: what it does when one expires is an arbitrary list of timer calls and notifications.

Beside what the code stores, the state keeps when a session entered its delay (`enteredUs`) and
the timers that the finite delays ask for (`delayed`).

**Results**
- `timerEffect`: what a transition does about the timer.
- `delays_honoured`: in a run without infinite initial delays, and whose delays all end before
  the pointer has gone round, every session waits for exactly its delay.
- `validate_withDelays`: the management interface accepts any delays of a client.
-/

namespace Warp17
namespace DelayTimers

open GuardedRuns ImixGroups TestCaseConfig TestStateMachine TimerExpiry TimerWheel

universe u

/-! ## The delays of the states -/

inductive DelayPhase
  | init
  | up
  | down
deriving DecidableEq, Repr

/-- The delay that a state waits for. -/
def delayPhase : TestSmState → Option DelayPhase
  | .clToInit => some .init
  | .clOpen => some .up
  | .clSending => some .up
  | .clNoSndWin => some .up
  | .clClosed => some .down
  | _ => none

def phaseDelay (delays : TestDelays) : DelayPhase → Delay
  | .init => delays.tcInitDelay
  | .up => delays.tcUptime
  | .down => delays.tcDowntime

/-- The delays of `tcim_test_case`. -/
def testDelays (cfg : TestCase) : TestDelays :=
  ⟨cfg.tcInitDelay.val, cfg.tcUptime.val, cfg.tcDowntime.val⟩

/-- The timer calls of an action. -/
def actionCalls : TestSmAction → List TimerCall
  | .testTmrSet timeoutUs => [.set .test timeoutUs]
  | .testTmrCancel => [.cancel .test]
  | _ => []

def timerCalls (actions : List TestSmAction) : List TimerCall :=
  actions.flatMap actionCalls

/-- The calls that a delay is entered with. -/
def delayCalls (d : Delay) : List TimerCall :=
  if d.isNone then [] else [.set .test (tpgDelayUs d)]

/-- What a transition does about the test timer. -/
inductive TimerEffect (delays : TestDelays) :
    TestSmState → TestSmEvent → TestSmState → List TimerCall → Prop
  | keeps {s s' : TestSmState} {e : TestSmEvent}
      (hevent : e ≠ .tmrTo)
      (hphase : delayPhase s' = delayPhase s) :
      TimerEffect delays s e s' []
  | expires {s s' : TestSmState}
      (hphase : delayPhase s' = none) :
      TimerEffect delays s .tmrTo s' []
  | cancels {s s' : TestSmState} {e : TestSmEvent}
      (hevent : e ≠ .tmrTo)
      (hphase : delayPhase s' = none) :
      TimerEffect delays s e s' [.cancel .test]
  | enters {s s' : TestSmState} {e : TestSmEvent} {phase : DelayPhase}
      (hevent : e ≠ .tmrTo)
      (hleft : delayPhase s = none)
      (hphase : delayPhase s' = some phase) :
      TimerEffect delays s e s' (delayCalls (phaseDelay delays phase))

theorem timerCalls_setUnlessInf
    (d : Delay) :
    timerCalls (setUnlessInf d) = delayCalls d := by
  cases d with
  | none =>
      rfl
  | some v =>
      rfl

@[simp] theorem timerCalls_append
    (actions actions' : List TestSmAction) :
    timerCalls (actions ++ actions') = timerCalls actions ++ timerCalls actions' :=
  List.flatMap_append ..

/-- The client is connected from a state without a delay. -/
theorem connectedClient_effect
    {delays : TestDelays} {actions : List TestSmAction} {s : TestSmState}
    {entered : TestSmState × List TestSmAction}
    (hactions : timerCalls actions = [])
    (hleft : delayPhase s = none)
    (hentered : connectedClient delays actions = some entered) :
    TimerEffect delays s .connected entered.1 (timerCalls entered.2) := by
  cases hentered
  have hcalls : timerCalls (actions ++ setUnlessInf delays.tcUptime ++ [] ++ [.connUp]) =
      delayCalls (phaseDelay delays .up) := by
    simp only [timerCalls_append, hactions, timerCalls_setUnlessInf]
    simp [timerCalls, actionCalls, phaseDelay]
  refine hcalls ▸ ?_
  exact .enters nofun hleft rfl

theorem timerEffect
    {delays : TestDelays} {s : TestSmState} {e : TestSmEvent}
    {entered : TestSmState × List TestSmAction}
    (hentered : testSmDispatchEvent delays s e = some entered) :
    TimerEffect delays s e entered.1 (timerCalls entered.2) := by
  cases s with
  | clToOpen =>
      cases e with
      | connected =>
          exact connectedClient_effect rfl rfl hentered
      | connecting =>
          cases hentered
          exact .keeps nofun rfl
      | purge =>
          cases hentered
          exact .cancels nofun rfl
      | _ =>
          cases hentered
  | clOpening =>
      cases e with
      | connected =>
          exact connectedClient_effect rfl rfl hentered
      | closing =>
          cases hentered
          exact .keeps nofun rfl
      | purge =>
          cases hentered
          exact .cancels nofun rfl
      | _ =>
          cases hentered
  | clClosing =>
      cases e with
      | closed =>
          cases hentered
          have hcalls : timerCalls ([] ++ (setUnlessInf delays.tcDowntime ++ [.cbqAdd .closed])) =
              delayCalls (phaseDelay delays .down) := by
            simp only [timerCalls_append, timerCalls_setUnlessInf]
            simp [timerCalls, actionCalls, phaseDelay]
          refine hcalls ▸ ?_
          exact .enters nofun rfl rfl
      | purge =>
          cases hentered
          exact .cancels nofun rfl
      | appSendStart =>
          cases hentered
          exact .keeps nofun rfl
      | appSendStop =>
          cases hentered
          exact .keeps nofun rfl
      | _ =>
          cases hentered
  | _ =>
      cases e <;> cases hentered <;>
        first
          | exact .keeps nofun rfl
          | exact .expires rfl
          | exact .cancels nofun rfl

/-! ## A core with its sessions -/

/-- The timers and the sessions of a core. -/
structure TestCore (α : Type u) where
  timers : Timers α
  /-- `l4cb_test_state`; nothing for a control block that is not in use -/
  test : α → Option TestSmState
  /-- an assertion has failed -/
  failed : Bool
  /-- when the session entered the delay it waits for -/
  enteredUs : α → Nat
  /-- the timers that the finite delays ask for, newest first -/
  delayed : List Arming

/-- The functions that put a control block into the test state machine. -/
inductive SessionStart
  | client
  | listen
  | server
deriving DecidableEq, Repr

def SessionStart.state : SessionStart → TestSmState
  | .client => .clToInit
  | .listen => .listen
  | .server => .srvOpening

/-- The control block is not in use, or it is the one of a client that got a SYN while opening. -/
def mayStart : SessionStart → Option TestSmState → Bool
  | _, none => true
  | _, some .purged => true
  | _, some .srvClosed => true
  | .server, some .clOpening => true
  | _, _ => false

/-- The notifications of the L4 layer, the application and the test engine. -/
inductive NotifEvent
  | connecting
  | connected
  | closing
  | closed
  | noSndWin
  | sndWin
  | appSendStart
  | appSendStop
  | purge
deriving DecidableEq, Repr

def NotifEvent.event : NotifEvent → TestSmEvent
  | .connecting => .connecting
  | .connected => .connected
  | .closing => .closing
  | .closed => .closed
  | .noSndWin => .noSndWin
  | .sndWin => .sndWin
  | .appSendStart => .appSendStart
  | .appSendStop => .appSendStop
  | .purge => .purge

/-- The timers of the TCP layer. -/
inductive TcpTimer
  | slow
  | rto
deriving DecidableEq, Repr

def TcpTimer.kind : TcpTimer → TimerKind
  | .slow => .slow
  | .rto => .rto

/-- What the code does about a control block. -/
inductive CoreAct
  | wait (cycles : Nat)
  | tcpSet (timer : TcpTimer) (timeoutUs : Nat)
  | tcpCancel (timer : TcpTimer)
  | notify (e : NotifEvent)
deriving DecidableEq, Repr

variable {α : Type u} [DecidableEq α]

/-- The delay that a transition enters. -/
def enteredPhase (old : Option TestSmState) (new : TestSmState) : Option DelayPhase :=
  if old.bind delayPhase = delayPhase new then none else delayPhase new

/-- The timer that the configured delay asks for; nothing without a finite delay. -/
def askedArming (delays : TestDelays) (t : Timers α) (phase : Option DelayPhase) : List Arming :=
  match phase.bind (phaseDelay delays) with
  | some v => [⟨t.usec, v * 1000000, (t.wheels .test).twCurrent, t.refUs⟩]
  | none => []

/-- A transition of the session to `new`, with its timer calls. -/
def move (delays : TestDelays) (cb : α) (c : TestCore α) (new : TestSmState)
    (calls : List TimerCall) : TestCore α where
  timers := calls.foldl (Timers.call cb) c.timers
  test := Function.update c.test cb (some new)
  failed := c.failed
  enteredUs :=
    if (enteredPhase (c.test cb) new).isSome then Function.update c.enteredUs cb c.timers.usec
    else c.enteredUs
  delayed := askedArming delays c.timers (enteredPhase (c.test cb) new) ++ c.delayed

section Step

variable (cfg : α → TestCase)

/-- `test_sm_dispatch_event` for the session of `cb`; nothing happens after a failure. -/
def dispatch (cb : α) (e : TestSmEvent) (c : TestCore α) : TestCore α :=
  if c.failed then c
  else
    match c.test cb with
    | none => c
    | some s =>
        match testSmDispatchEvent (testDelays (cfg cb)) s e with
        | none => { c with failed := true }
        | some entered =>
            move (testDelays (cfg cb)) cb c entered.1 (timerCalls entered.2)

/-- `test_sm_client_initialize`, `test_sm_listen_initialize`, `test_sm_server_initialize`. -/
def start (cb : α) (call : SessionStart) (c : TestCore α) : TestCore α :=
  if c.failed then c
  else if mayStart call (c.test cb) then
    let entered := testSmEnterState (testDelays (cfg cb)) call.state
    move (testDelays (cfg cb)) cb c entered.1 (timerCalls entered.2)
  else c

def TestCore.callTimer (c : TestCore α) (cb : α) (call : TimerCall) : TestCore α :=
  { c with timers := c.timers.call cb call }

def act (cb : α) (c : TestCore α) : CoreAct → TestCore α
  | .wait cycles => c.callTimer cb (.wait cycles)
  | .tcpSet timer timeoutUs => c.callTimer cb (.set timer.kind timeoutUs)
  | .tcpCancel timer => c.callTimer cb (.cancel timer.kind)
  | .notify e => dispatch cfg cb e.event c

def TestCore.onWheel (c : TestCore α) (kind : TimerKind) (f : TmrWheel α → TmrWheel α) :
    TestCore α :=
  { c with timers := c.timers.onWheel kind f }

/-- `l4cb_handle_test_to` for a test timer, and what the TCP layer does about its own. -/
def handleTimeoutCore (kind : TimerKind) (cb : α) (acts : List CoreAct) (c : TestCore α) :
    TestCore α :=
  let unlinked := c.onWheel kind fun w => w.expire cb c.timers.usec
  match kind with
  | .test => dispatch cfg cb .tmrTo unlinked
  | .slow => acts.foldl (act cfg cb) unlinked
  | .rto => acts.foldl (act cfg cb) unlinked

/-- What the TCP layer does about each timer, given the wheel, the block and the runs left. -/
abbrev TcpHandler (α : Type u) := TimerKind → α → Nat → List CoreAct

/-- `walkBucket` with the sessions. -/
def walkBucketCore (handler : TcpHandler α) (kind : TimerKind) :
    Nat → Option α → TestCore α → TestCore α × Nat
  | 0, _, c => (c, 0)
  | left + 1, none, c => (c, left + 1)
  | left + 1, some cb, c =>
      let tmp := (c.timers.wheels kind).links.next cb
      walkBucketCore handler kind left tmp
        (handleTimeoutCore cfg kind cb (handler kind cb left) c)

def walkWheelCore (handler : TcpHandler α) (kind : TimerKind) (nowIdx : Nat) :
    Nat → Nat → TestCore α → TestCore α × Nat
  | 0, left, c => (c, left)
  | fuel + 1, left, c =>
      let w := c.timers.wheels kind
      if w.twCurrent = nowIdx then (c, left)
      else
        let walked := walkBucketCore cfg handler kind left (w.links.first w.twCurrent) c
        if walked.2 = 0 then walked
        else
          walkWheelCore handler kind nowIdx fuel walked.2
            (walked.1.onWheel kind TmrWheel.passBucket)

def timeWheelAdvanceCore (handler : TcpHandler α) (c : TestCore α) (kind : TimerKind)
    (now : Nat) : TestCore α :=
  let nowUs := now / c.timers.cyclesPerUs
  let w := c.timers.wheels kind
  let walked := walkWheelCore cfg handler kind ((nowUs / w.twStep) % w.twSize) w.twSize
    tmrMaxRunCnt c
  walked.1.onWheel kind fun w => { w with twLastAdvance := now, runsLeft := walked.2 }

def advanceWheelCore (handler : TcpHandler α) (now : Nat) (c : TestCore α) (kind : TimerKind) :
    TestCore α :=
  if tcpTimeShouldAdvance c.timers kind now then timeWheelAdvanceCore cfg handler c kind now
  else c

def timeAdvanceCore (handler : TcpHandler α) (c : TestCore α) : TestCore α :=
  let now := c.timers.cycles
  let advanced := [TimerKind.slow, .rto, .test].foldl (advanceWheelCore cfg handler now)
    { c with timers := { c.timers with advanceUs := some c.timers.usec } }
  { advanced with timers := { advanced.timers with advanceUs := none } }

/-- What happens on the core. -/
inductive CoreInput (α : Type u)
  | start (cb : α) (call : SessionStart)
  | act (cb : α) (a : CoreAct)
  | advance (handler : TcpHandler α)

def coreStep (c : TestCore α) : CoreInput α → TestCore α
  | .start cb call => start cfg cb call c
  | .act cb a => act cfg cb c a
  | .advance handler => timeAdvanceCore cfg handler c

end Step

/-- A core just started, without sessions. -/
def startedCore (cycles cyclesPerUs : Nat) (next : TimerKind → α → Option α)
    (prev : TimerKind → α → IntrusiveLists.Place Nat α) : TestCore α where
  timers := timerLcoreInit defaultWheels cycles cyclesPerUs next prev
  test := fun _ => none
  failed := false
  enteredUs := fun _ => 0
  delayed := []

/-! ## What is asked of the sessions -/

/-- The states of a client that was not purged. -/
def clientState : TestSmState → Bool
  | .clToInit | .clToOpen | .clOpening | .clOpen | .clSending | .clNoSndWin | .clToClose
  | .clClosing | .clClosed => true
  | .srvOpening | .srvOpen | .srvSending | .srvNoSndWin | .srvClosing | .srvClosed | .listen
  | .purged => false

/-- A session in a state with a finite delay waits for exactly this delay, since it entered. -/
def Waiting (delays : TestDelays) (s : Option TestSmState) (enteredUs : Nat)
    (timer : Option Arming) : Prop :=
  match (s.bind delayPhase).bind (phaseDelay delays) with
  | some v => ∃ a, timer = some a ∧ a.nowUs = enteredUs ∧ a.timeoutUs = v * 1000000
  | none => timer = none

/-- Every delay is honoured so far: timers of the right length, never early, never passed over. -/
structure DelaysHonoured (cfg : α → TestCase) (c : TestCore α) : Prop where
  waiting : c.failed = false → ∀ cb,
    Waiting (testDelays (cfg cb)) (c.test cb) (c.enteredUs cb)
      (pending cb (c.timers.wheels .test).trace)
  atOnce : ∀ cb, c.test cb = some .clToInit → tpgDelayVal (testDelays (cfg cb)).tcInitDelay ≠ 0
  /-- a client never leaves an infinite initial delay -/
  unopened : ∀ cb, (testDelays (cfg cb)).tcInitDelay = none → ∀ s, c.test cb = some s →
    clientState s = true → s = .clToInit
  onTime : NoEarlyExpiry (c.timers.wheels .test)
  inOrder : InOrder (c.timers.wheels .test)

/-! ## The timers move as they do without the sessions -/

section Simulation

variable {cfg : α → TestCase} {cb : α} {c : TestCore α}

end Simulation

/-! ## The test wheel -/

section TestWheel

variable {w : TmrWheel α} {cb : α} {nowUs refUs timeoutUs : Nat}

/-- The flag of a control block says whether its timer is pending. -/
def FlagOk (w : TmrWheel α) : Prop :=
  ∀ cb, w.onList cb = (pending cb w.trace).isSome

theorem flagOk_unlink
    (hflag : FlagOk w)
    {event : TimerEvent α}
    (hown : ∀ trace, pending cb (event :: trace) = none)
    (hothers : ∀ b, b ≠ cb → ∀ trace, pending b (event :: trace) = pending b trace) :
    FlagOk { w with
      links := w.links.remove cb
      onList := Function.update w.onList cb false
      trace := event :: w.trace } := by
  intro b
  by_cases hb : b = cb
  · subst hb
    simp [hown]
  · simp only [Function.update_of_ne hb, hothers b hb]
    exact hflag b

theorem pending_armed
    (a : Arming) (trace : List (TimerEvent α)) (b : α) :
    pending b (.armed cb a :: trace) = if cb = b then some a else pending b trace :=
  rfl

theorem pending_fired
    (trace : List (TimerEvent α)) (b : α) :
    pending b (.fired cb nowUs :: trace) = if cb = b then none else pending b trace :=
  rfl

theorem flagOk_expire
    (hflag : FlagOk w) :
    FlagOk (w.expire cb nowUs) :=
  flagOk_unlink hflag (fun _ => if_pos rfl) fun _ hb _ => if_neg fun heq => hb heq.symm

/-- After a cancellation the timer is not pending, whether it was or not. -/
theorem cancel_spec
    (hflag : FlagOk w) :
    FlagOk (w.cancel cb nowUs).1 ∧
      ∀ b, pending b (w.cancel cb nowUs).1.trace =
        if cb = b then none else pending b w.trace := by
  unfold TmrWheel.cancel
  split_ifs with hset
  · exact ⟨flagOk_unlink hflag (fun _ => if_pos rfl) fun _ hb _ => if_neg fun heq => hb heq.symm,
      fun b => rfl⟩
  · refine ⟨hflag, fun b => ?_⟩
    by_cases hb : cb = b
    · subst hb
      rw [if_pos rfl]
      have hoff : (pending cb w.trace).isSome = false := by
        rw [← hflag cb]
        simpa using hset
      simpa using hoff
    · rw [if_neg hb]

/-- Setting a timer that is off, with a timeout that the wheel takes. -/
theorem arm_spec
    (hsize : w.twSize = 18000000)
    (hstep : w.twStep = 100)
    (hoff : w.onList cb = false)
    (htimeout : timeoutUs < 1800000000) :
    (w.arm cb nowUs refUs timeoutUs).1.trace =
      .armed cb ⟨nowUs, timeoutUs, w.twCurrent, refUs⟩ :: w.trace := by
  have hbucket : w.wheelBucket nowUs timeoutUs =
      some ((nowUs + timeoutUs) / w.twStep % w.twSize) := by
    unfold TmrWheel.wheelBucket
    rw [hsize, hstep, if_neg (by omega)]
    exact if_pos (by omega)
  simp only [TmrWheel.arm, hoff, hbucket]
  rfl

theorem flagOk_arm
    (hflag : FlagOk w) :
    FlagOk (w.arm cb nowUs refUs timeoutUs).1 := by
  unfold TmrWheel.arm
  split_ifs with hset
  · exact hflag
  · cases w.wheelBucket nowUs timeoutUs with
    | none =>
        exact hflag
    | some bucket =>
        intro b
        by_cases hb : b = cb
        · subst hb
          simp [pending_armed]
        · simp only [Function.update_of_ne hb, pending_armed, if_neg (Ne.symm hb)]
          exact hflag b

/-- A timer that is due before the pointer has gone round is shorter than the round. -/
theorem inTurn_lt
    {a : Arming}
    (hturn : InTurn 18000000 100 a)
    (href : a.refUs ≤ a.nowUs) :
    a.timeoutUs < 1800000000 := by
  unfold InTurn due at hturn
  omega

end TestWheel

/-! ## The invariant -/

/-- All delays so far are due before the pointer has gone round. -/
def AllAskedInTurn (c : TestCore α) : Prop :=
  ∀ a ∈ c.delayed, InTurn 18000000 100 a

/-- What a core keeps. -/
structure CoreInv (cfg : α → TestCase) (c : TestCore α) : Prop where
  size : (c.timers.wheels .test).twSize = 18000000
  step : (c.timers.wheels .test).twStep = 100
  clock : c.timers.refUs ≤ c.timers.usec
  flag : FlagOk (c.timers.wheels .test)
  inTurn : AllAskedInTurn c → AllInTurn 18000000 100 (c.timers.wheels .test).trace
  waits : AllAskedInTurn c → c.failed = false → ∀ cb,
    Waiting (testDelays (cfg cb)) (c.test cb) (c.enteredUs cb)
      (pending cb (c.timers.wheels .test).trace)
  atOnce : ∀ cb, c.test cb = some .clToInit → tpgDelayVal (testDelays (cfg cb)).tcInitDelay ≠ 0

/-- The sessions and the test timers are the same. -/
structure SameTests (c c' : TestCore α) : Prop where
  size : (c'.timers.wheels .test).twSize = (c.timers.wheels .test).twSize
  step : (c'.timers.wheels .test).twStep = (c.timers.wheels .test).twStep
  onList : (c'.timers.wheels .test).onList = (c.timers.wheels .test).onList
  trace : (c'.timers.wheels .test).trace = (c.timers.wheels .test).trace
  test : c'.test = c.test
  failed : c'.failed = c.failed
  enteredUs : c'.enteredUs = c.enteredUs
  delayed : c'.delayed = c.delayed

section Invariant

variable {cfg : α → TestCase} {c c' : TestCore α} {cb : α}

theorem CoreInv.frame
    (hinv : CoreInv cfg c)
    (hsame : SameTests c c')
    (hclock : c'.timers.refUs ≤ c'.timers.usec) :
    CoreInv cfg c' := by
  have hasked : AllAskedInTurn c' ↔ AllAskedInTurn c := by
    unfold AllAskedInTurn
    rw [hsame.delayed]
  constructor
  · rw [hsame.size, hinv.size]
  · rw [hsame.step, hinv.step]
  · exact hclock
  · intro b
    rw [hsame.onList, hsame.trace]
    exact hinv.flag b
  · intro h
    rw [hsame.trace]
    exact hinv.inTurn (hasked.1 h)
  · intro h hfailed b
    rw [hsame.test, hsame.enteredUs, hsame.trace]
    exact hinv.waits (hasked.1 h) (hsame.failed.symm.trans hfailed) b
  · intro b
    rw [hsame.test]
    exact hinv.atOnce b

/-- Turning a wheel leaves the timers alone. -/
theorem CoreInv.onWheel
    {kind : TimerKind} {f : TmrWheel α → TmrWheel α}
    (hinv : CoreInv cfg c)
    (hsize : ∀ w, (f w).twSize = w.twSize)
    (hstep : ∀ w, (f w).twStep = w.twStep)
    (honList : ∀ w, kind = .test → (f w).onList = w.onList)
    (htrace : ∀ w, kind = .test → (f w).trace = w.trace) :
    CoreInv cfg (c.onWheel kind f) := by
  refine hinv.frame ?_ hinv.clock
  by_cases hkind : kind = .test
  · subst hkind
    have hwheel : (c.onWheel .test f).timers.wheels .test = f (c.timers.wheels .test) :=
      onWheel_self c.timers .test f
    constructor
    · rw [hwheel, hsize]
    · rw [hwheel, hstep]
    · rw [hwheel, honList _ rfl]
    · rw [hwheel, htrace _ rfl]
    all_goals rfl
  · have hwheel : (c.onWheel kind f).timers.wheels .test = c.timers.wheels .test :=
      onWheel_of_ne f (Ne.symm hkind)
    constructor
    · rw [hwheel]
    · rw [hwheel]
    · rw [hwheel]
    · rw [hwheel]
    all_goals rfl

/-- Time passes. -/
theorem CoreInv.wait
    (hinv : CoreInv cfg c)
    (cycles : Nat) :
    CoreInv cfg (c.callTimer cb (.wait cycles)) := by
  refine hinv.frame ⟨rfl, rfl, rfl, rfl, rfl, rfl, rfl, rfl⟩ ?_
  have hle := (later_call c.timers cb (.wait cycles)).usec_le
  have hclock := hinv.clock
  unfold Timers.refUs at hclock ⊢
  cases hadvance : c.timers.advanceUs with
  | none =>
      simp only [TestCore.callTimer, Timers.call, hadvance]
      exact le_refl _
  | some us =>
      simp only [TestCore.callTimer, Timers.call, hadvance] at hclock hle ⊢
      exact hclock.trans hle

/-- A transition that leaves the timer alone, within the same delay or none. -/
theorem CoreInv.moveKeeps
    {new : TestSmState}
    (hinv : CoreInv cfg c)
    (hphase : (c.test cb).bind delayPhase = delayPhase new)
    (hnew : new = .clToInit → tpgDelayVal (testDelays (cfg cb)).tcInitDelay ≠ 0) :
    CoreInv cfg (move (testDelays (cfg cb)) cb c new []) := by
  have hentered : enteredPhase (c.test cb) new = none := if_pos hphase
  have hmove : move (testDelays (cfg cb)) cb c new [] =
      { c with test := Function.update c.test cb (some new) } := by
    simp only [move, hentered]
    rfl
  rw [hmove]
  refine ⟨hinv.size, hinv.step, hinv.clock, hinv.flag, hinv.inTurn, fun hasked hfailed b => ?_,
    fun b hb => ?_⟩
  · have hold := hinv.waits hasked hfailed b
    by_cases hb : b = cb
    · subst hb
      unfold Waiting at hold ⊢
      rw [hphase] at hold
      simpa using hold
    · simpa [Function.update_of_ne hb] using hold
  · by_cases hcb : b = cb
    · subst hcb
      exact hnew (by simpa using hb)
    · exact hinv.atOnce b (by simpa [Function.update_of_ne hcb] using hb)

/-- A transition that cancels the timer. -/
theorem CoreInv.moveCancels
    {new : TestSmState}
    (hinv : CoreInv cfg c)
    (hphase : delayPhase new = none) :
    CoreInv cfg (move (testDelays (cfg cb)) cb c new [.cancel .test]) := by
  have hentered : enteredPhase (c.test cb) new = none := by
    unfold enteredPhase
    split_ifs with heq
    · rfl
    · exact hphase
  have hmove : move (testDelays (cfg cb)) cb c new [.cancel .test] =
      { c.onWheel .test (fun w => (w.cancel cb c.timers.usec).1) with
        test := Function.update c.test cb (some new) } := by
    simp only [move, hentered]
    rfl
  have hwheel : (c.onWheel .test fun w => (w.cancel cb c.timers.usec).1).timers.wheels .test =
      ((c.timers.wheels .test).cancel cb c.timers.usec).1 :=
    onWheel_self c.timers .test fun w => (w.cancel cb c.timers.usec).1
  have hface := sameFace_cancel (c.timers.wheels .test) cb c.timers.usec
  obtain ⟨hflag, hpending⟩ := @cancel_spec α _ _ cb c.timers.usec hinv.flag
  rw [hmove]
  constructor
  · rw [← hinv.size, ← hface.size, ← hwheel]
  · rw [← hinv.step, ← hface.step, ← hwheel]
  · exact hinv.clock
  · intro b
    dsimp only
    rw [hwheel]
    exact hflag b
  · intro hasked
    dsimp only
    rw [hwheel]
    have hold := hinv.inTurn hasked
    unfold TmrWheel.cancel
    split_ifs with hset
    · exact hold
    · exact hold
  · intro hasked hfailed b
    have hold := hinv.waits hasked hfailed b
    dsimp only
    rw [hwheel, hpending b]
    by_cases hb : cb = b
    · subst hb
      simp [Waiting, hphase]
    · rw [if_neg hb, Function.update_of_ne (Ne.symm hb)]
      exact hold
  · intro b hb
    by_cases hcb : b = cb
    · subst hcb
      have hnew : new = .clToInit := by simpa using hb
      rw [hnew] at hphase
      cases hphase
    · exact hinv.atOnce b (by simpa [Function.update_of_ne hcb] using hb)

/-- With all delays in turn the timer is armed, for what was asked. -/
theorem CoreInv.armed
    {v : Nat}
    (hinv : CoreInv cfg c)
    (hfailed : c.failed = false)
    (hleft : (c.test cb).bind delayPhase = none)
    (hasked : AllAskedInTurn c)
    (hturn : InTurn 18000000 100 ⟨c.timers.usec, v * 1000000, (c.timers.wheels .test).twCurrent,
      c.timers.refUs⟩) :
    ((c.timers.wheels .test).arm cb c.timers.usec c.timers.refUs (tpgDelayUs (some v))).1.trace =
      .armed cb ⟨c.timers.usec, v * 1000000, (c.timers.wheels .test).twCurrent,
        c.timers.refUs⟩ :: (c.timers.wheels .test).trace := by
  have hlt := inTurn_lt hturn hinv.clock
  dsimp only at hlt
  have hexact : tpgDelayUs (some v) = v * 1000000 :=
    Nat.mod_eq_of_lt (lt_trans hlt (by decide))
  have hoff : (c.timers.wheels .test).onList cb = false := by
    have hold := hinv.waits hasked hfailed cb
    unfold Waiting at hold
    rw [hleft] at hold
    rw [hinv.flag cb]
    simpa using hold
  rw [hexact]
  exact arm_spec hinv.size hinv.step hoff hlt

/-- A transition into a delay. -/
theorem CoreInv.moveEnters
    {new : TestSmState} {phase : DelayPhase}
    (hinv : CoreInv cfg c)
    (hfailed : c.failed = false)
    (hleft : (c.test cb).bind delayPhase = none)
    (hphase : delayPhase new = some phase)
    (hnew : new = .clToInit → tpgDelayVal (testDelays (cfg cb)).tcInitDelay ≠ 0) :
    CoreInv cfg (move (testDelays (cfg cb)) cb c new
      (delayCalls (phaseDelay (testDelays (cfg cb)) phase))) := by
  have hentered : enteredPhase (c.test cb) new = some phase := by
    unfold enteredPhase
    rw [hleft, hphase]
    rfl
  have hstarted : ∀ b, Function.update c.test cb (some new) b = some .clToInit →
      tpgDelayVal (testDelays (cfg b)).tcInitDelay ≠ 0 := by
    intro b hb
    by_cases hcb : b = cb
    · subst hcb
      exact hnew (by simpa using hb)
    · exact hinv.atOnce b (by simpa [Function.update_of_ne hcb] using hb)
  cases hdelay : phaseDelay (testDelays (cfg cb)) phase with
  | none =>
      have hmove : move (testDelays (cfg cb)) cb c new (delayCalls none) =
          { c with
            test := Function.update c.test cb (some new)
            enteredUs := Function.update c.enteredUs cb c.timers.usec } := by
        simp [move, hentered, askedArming, hdelay, delayCalls]
      rw [hmove]
      refine ⟨hinv.size, hinv.step, hinv.clock, hinv.flag, hinv.inTurn,
        fun hasked hfailed b => ?_, hstarted⟩
      have hold := hinv.waits hasked hfailed b
      by_cases hb : b = cb
      · subst hb
        unfold Waiting at hold ⊢
        rw [hleft] at hold
        simpa [hphase, hdelay] using hold
      · simpa [Function.update_of_ne hb] using hold
  | some v =>
      have hmove : move (testDelays (cfg cb)) cb c new (delayCalls (some v)) =
          { c.onWheel .test (fun w =>
              (w.arm cb c.timers.usec c.timers.refUs (tpgDelayUs (some v))).1) with
            test := Function.update c.test cb (some new)
            enteredUs := Function.update c.enteredUs cb c.timers.usec
            delayed := ⟨c.timers.usec, v * 1000000, (c.timers.wheels .test).twCurrent,
              c.timers.refUs⟩ :: c.delayed } := by
        simp only [move, hentered, askedArming]
        simp [hdelay]
        exact ⟨rfl, rfl⟩
      have hwheel : (c.onWheel .test fun w =>
          (w.arm cb c.timers.usec c.timers.refUs (tpgDelayUs (some v))).1).timers.wheels .test =
          ((c.timers.wheels .test).arm cb c.timers.usec c.timers.refUs
            (tpgDelayUs (some v))).1 :=
        onWheel_self c.timers .test fun w =>
          (w.arm cb c.timers.usec c.timers.refUs (tpgDelayUs (some v))).1
      have hface := sameFace_arm (c.timers.wheels .test) cb c.timers.usec c.timers.refUs
        (tpgDelayUs (some v))
      rw [hmove]
      constructor
      · rw [← hinv.size, ← hface.size, ← hwheel]
      · rw [← hinv.step, ← hface.step, ← hwheel]
      · exact hinv.clock
      · dsimp only
        rw [hwheel]
        exact flagOk_arm hinv.flag
      · intro hasked
        obtain ⟨hturn, hrest⟩ := List.forall_mem_cons.1 hasked
        dsimp only
        rw [hwheel]
        rw [hinv.armed hfailed hleft hrest hturn]
        exact ⟨hturn, hinv.inTurn hrest⟩
      · intro hasked _ b
        obtain ⟨hturn, hrest⟩ := List.forall_mem_cons.1 hasked
        have hold := hinv.waits hrest hfailed b
        dsimp only
        rw [hwheel, hinv.armed hfailed hleft hrest hturn, pending_armed]
        by_cases hb : cb = b
        · subst hb
          simp [Waiting, hphase, hdelay]
        · rw [if_neg hb, Function.update_of_ne (Ne.symm hb), Function.update_of_ne (Ne.symm hb)]
          exact hold
      · exact hstarted

/-- After a failure nothing is asked of the sessions. -/
theorem CoreInv.fail
    (hinv : CoreInv cfg c)
    (htest : ∀ cb, c'.test cb = some .clToInit →
      tpgDelayVal (testDelays (cfg cb)).tcInitDelay ≠ 0)
    (htimers : c'.timers = c.timers)
    (hdelayed : c'.delayed = c.delayed)
    (hfailed : c'.failed = true) :
    CoreInv cfg c' := by
  have hasked : AllAskedInTurn c' → AllAskedInTurn c := by
    unfold AllAskedInTurn
    rw [hdelayed]
    exact id
  refine ⟨?_, ?_, ?_, ?_, ?_, ?_, htest⟩
  · rw [htimers, hinv.size]
  · rw [htimers, hinv.step]
  · rw [htimers]
    exact hinv.clock
  · rw [htimers]
    exact hinv.flag
  · rw [htimers]
    exact fun h => hinv.inTurn (hasked h)
  · intro _ halive
    rw [hfailed] at halive
    cases halive

/-- No event leads back to `TSTS_CL_TO_INIT`. -/
theorem dispatch_ne_clToInit
    {delays : TestDelays} {s : TestSmState} {e : TestSmEvent}
    {entered : TestSmState × List TestSmAction}
    (hentered : testSmDispatchEvent delays s e = some entered) :
    entered.1 ≠ .clToInit := by
  cases s <;> cases e <;> cases hentered <;> exact nofun

theorem CoreInv.notify
    (hinv : CoreInv cfg c)
    (e : NotifEvent) :
    CoreInv cfg (dispatch cfg cb e.event c) := by
  unfold dispatch
  split_ifs with hfailed
  · exact hinv
  · cases htest : c.test cb with
    | none =>
        exact hinv
    | some s =>
        have htmr : e.event ≠ .tmrTo := by cases e <;> exact nofun
        cases hentered : testSmDispatchEvent (testDelays (cfg cb)) s e.event with
        | none =>
            simp only [hentered]
            exact hinv.fail hinv.atOnce rfl rfl rfl
        | some entered =>
            simp only [hentered]
            have hne : entered.1 = .clToInit →
                tpgDelayVal (testDelays (cfg cb)).tcInitDelay ≠ 0 := fun h =>
              absurd h (dispatch_ne_clToInit hentered)
            have heffect := timerEffect hentered
            generalize timerCalls entered.2 = calls at heffect ⊢
            generalize e.event = event at heffect htmr
            cases heffect with
            | keeps hevent hphase =>
                exact hinv.moveKeeps (by rw [htest, hphase]; rfl) hne
            | expires hphase =>
                exact absurd rfl htmr
            | cancels hevent hphase =>
                exact hinv.moveCancels hphase
            | enters hevent hleft hphase =>
                exact hinv.moveEnters (by simpa using hfailed) (by rw [htest]; exact hleft)
                  hphase hne

theorem CoreInv.start
    (hinv : CoreInv cfg c)
    (call : SessionStart) :
    CoreInv cfg (start cfg cb call c) := by
  unfold DelayTimers.start
  split_ifs with hfailed hmay
  · exact hinv
  · have hleft : (c.test cb).bind delayPhase = none := by
      cases htest : c.test cb with
      | none =>
          rfl
      | some s =>
          rw [htest] at hmay
          cases call <;> cases s <;> first | rfl | cases hmay
    cases call with
    | listen =>
        exact hinv.moveKeeps hleft nofun
    | server =>
        exact hinv.moveKeeps hleft nofun
    | client =>
        simp only [SessionStart.state, testSmEnterState]
        split_ifs with hzero
        · exact hinv.moveKeeps hleft nofun
        · cases hdelay : (testDelays (cfg cb)).tcInitDelay with
          | none =>
              rw [hdelay] at hzero
              exact absurd rfl hzero
          | some v =>
              have hcalls : timerCalls [.cbqAdd .toInit, .testTmrSet (tpgDelayUs (some v))] =
                  delayCalls (phaseDelay (testDelays (cfg cb)) .init) := by
                simp [timerCalls, actionCalls, delayCalls, phaseDelay, hdelay]
              rw [hcalls]
              exact hinv.moveEnters (by simpa using hfailed) hleft rfl fun _ => hzero
  · exact hinv

/-- A fired test timer, with its session set aside. -/
theorem CoreInv.expireTest
    (hinv : CoreInv cfg c) :
    CoreInv cfg { c.onWheel .test (fun w => w.expire cb c.timers.usec) with
      test := Function.update c.test cb none } := by
  have hwheel : (c.onWheel .test fun w => w.expire cb c.timers.usec).timers.wheels .test =
      (c.timers.wheels .test).expire cb c.timers.usec :=
    onWheel_self c.timers .test fun w => w.expire cb c.timers.usec
  constructor
  · rw [hwheel]
    exact hinv.size
  · rw [hwheel]
    exact hinv.step
  · exact hinv.clock
  · rw [hwheel]
    exact flagOk_expire hinv.flag
  · rw [hwheel]
    exact hinv.inTurn
  · intro hasked hfailed b
    have hold := hinv.waits hasked hfailed b
    dsimp only
    rw [hwheel]
    by_cases hb : cb = b
    · subst hb
      simp [Waiting, TmrWheel.expire, pending_fired]
    · have hpending : pending b ((c.timers.wheels .test).expire cb c.timers.usec).trace =
          pending b (c.timers.wheels .test).trace := if_neg hb
      rw [Function.update_of_ne (Ne.symm hb), hpending]
      exact hold
  · intro b hb
    by_cases hcb : b = cb
    · subst hcb
      simp at hb
    · exact hinv.atOnce b (by simpa [Function.update_of_ne hcb] using hb)

/-- `l4cb_handle_test_to` -/
theorem CoreInv.testTimeout
    (hinv : CoreInv cfg c) :
    CoreInv cfg (dispatch cfg cb .tmrTo
      (c.onWheel .test fun w => w.expire cb c.timers.usec)) := by
  have haside := @CoreInv.expireTest α _ cfg c cb hinv
  unfold dispatch
  split_ifs with hfailed
  · exact haside.fail hinv.atOnce rfl rfl hfailed
  · cases htest : (c.onWheel .test fun w => w.expire cb c.timers.usec).test cb with
    | none =>
        have hsame : Function.update c.test cb none = c.test :=
          Function.update_eq_self_iff.2 htest.symm
        rw [hsame] at haside
        exact haside
    | some s =>
        cases hentered : testSmDispatchEvent (testDelays (cfg cb)) s .tmrTo with
        | none =>
            simp only [hentered]
            exact haside.fail hinv.atOnce rfl rfl rfl
        | some entered =>
            simp only [hentered]
            have heffect := timerEffect hentered
            generalize timerCalls entered.2 = calls at heffect ⊢
            cases heffect with
            | keeps hevent hphase =>
                exact absurd rfl hevent
            | cancels hevent hphase =>
                exact absurd rfl hevent
            | enters hevent hleft hphase =>
                exact absurd rfl hevent
            | expires hphase =>
                have hmoved := @CoreInv.moveKeeps α _ cfg _ cb entered.1 haside
                  (by simp [hphase]) fun h => absurd h (dispatch_ne_clToInit hentered)
                have heq : move (testDelays (cfg cb)) cb
                    { c.onWheel .test (fun w => w.expire cb c.timers.usec) with
                      test := Function.update c.test cb none } entered.1 [] =
                    move (testDelays (cfg cb)) cb
                      (c.onWheel .test fun w => w.expire cb c.timers.usec) entered.1 [] := by
                  have hnone : ∀ s, enteredPhase s entered.1 = none := by
                    intro s
                    unfold enteredPhase
                    rw [hphase, ite_self]
                  simp only [move, hnone, Function.update_idem]
                  rfl
                rw [← heq]
                exact hmoved

theorem CoreInv.act
    (hinv : CoreInv cfg c)
    (a : CoreAct) :
    CoreInv cfg (act cfg cb c a) := by
  have htcp : ∀ (timer : TcpTimer) (f : TmrWheel α → TmrWheel α),
      CoreInv cfg (c.onWheel timer.kind f) := by
    intro timer f
    have hwheel : (c.onWheel timer.kind f).timers.wheels .test = c.timers.wheels .test :=
      onWheel_of_ne f (by cases timer <;> nofun)
    refine hinv.frame ⟨?_, ?_, ?_, ?_, rfl, rfl, rfl, rfl⟩ hinv.clock
    all_goals rw [hwheel]
  cases a with
  | wait cycles =>
      exact hinv.wait cycles
  | tcpSet timer timeoutUs =>
      exact htcp timer fun w => (w.arm cb c.timers.usec c.timers.refUs timeoutUs).1
  | tcpCancel timer =>
      exact htcp timer fun w => (w.cancel cb c.timers.usec).1
  | notify e =>
      exact hinv.notify e

theorem CoreInv.handleTimeout
    (hinv : CoreInv cfg c)
    (kind : TimerKind) (acts : List CoreAct) :
    CoreInv cfg (handleTimeoutCore cfg kind cb acts c) := by
  have hacts : ∀ c' : TestCore α, CoreInv cfg c' →
      CoreInv cfg (acts.foldl (DelayTimers.act cfg cb) c') := by
    induction acts with
    | nil =>
        exact fun c' h => h
    | cons a acts ih =>
        exact fun c' h => ih _ (h.act a)
  cases kind with
  | test =>
      exact hinv.testTimeout
  | slow =>
      exact hacts _ (hinv.onWheel (fun _ => rfl) (fun _ => rfl) nofun nofun)
  | rto =>
      exact hacts _ (hinv.onWheel (fun _ => rfl) (fun _ => rfl) nofun nofun)

theorem CoreInv.walkBucket
    (handler : TcpHandler α) (kind : TimerKind) (left : Nat) (current : Option α)
    (hinv : CoreInv cfg c) :
    CoreInv cfg (walkBucketCore cfg handler kind left current c).1 := by
  induction left generalizing current c with
  | zero =>
      exact hinv
  | succ left ih =>
      cases current with
      | none =>
          exact hinv
      | some cb =>
          exact ih _ (hinv.handleTimeout kind _)

theorem CoreInv.walkWheel
    (handler : TcpHandler α) (kind : TimerKind) (nowIdx fuel left : Nat)
    (hinv : CoreInv cfg c) :
    CoreInv cfg (walkWheelCore cfg handler kind nowIdx fuel left c).1 := by
  induction fuel generalizing left c with
  | zero =>
      exact hinv
  | succ fuel ih =>
      simp only [walkWheelCore]
      have hwalked := hinv.walkBucket handler kind left
        ((c.timers.wheels kind).links.first (c.timers.wheels kind).twCurrent)
      split_ifs with harrived hcut
      · exact hinv
      · exact hwalked
      · exact ih _ (hwalked.onWheel (fun _ => rfl) (fun _ => rfl) (fun _ _ => rfl)
          fun _ _ => rfl)

theorem CoreInv.timeAdvance
    (hinv : CoreInv cfg c)
    (handler : TcpHandler α) :
    CoreInv cfg (timeAdvanceCore cfg handler c) := by
  have hwheels : ∀ (kinds : List TimerKind) (now : Nat) (c : TestCore α), CoreInv cfg c →
      CoreInv cfg (kinds.foldl (advanceWheelCore cfg handler now) c) := by
    intro kinds now
    induction kinds with
    | nil =>
        exact fun c h => h
    | cons kind kinds ih =>
        intro c h
        refine ih _ ?_
        unfold advanceWheelCore
        split_ifs with hshould
        · exact (h.walkWheel handler kind _ _ _).onWheel (fun _ => rfl) (fun _ => rfl)
            (fun _ _ => rfl) fun _ _ => rfl
        · exact h
  have hstarted : CoreInv cfg
      { c with timers := { c.timers with advanceUs := some c.timers.usec } } :=
    hinv.frame ⟨rfl, rfl, rfl, rfl, rfl, rfl, rfl, rfl⟩ (le_refl _)
  exact (hwheels [.slow, .rto, .test] c.timers.cycles _ hstarted).frame
    ⟨rfl, rfl, rfl, rfl, rfl, rfl, rfl, rfl⟩ (le_refl _)

theorem CoreInv.coreStep
    (hinv : CoreInv cfg c)
    (input : CoreInput α) :
    CoreInv cfg (coreStep cfg c input) := by
  cases input with
  | start cb call =>
      exact hinv.start call
  | act cb a =>
      exact hinv.act a
  | advance handler =>
      exact hinv.timeAdvance handler

end Invariant

/-! ## Infinite initial delays -/

section Unopened

variable {cfg : α → TestCase} {c : TestCore α}

/-- The input does not start a client whose initial delay is infinite. -/
def StartsFinite (cfg : α → TestCase) (c : TestCore α) : CoreInput α → Prop
  | .start cb .client =>
      c.failed = false → mayStart .client (c.test cb) = true →
        (testDelays (cfg cb)).tcInitDelay ≠ none
  | _ => True

/-- No control block with an infinite initial delay is a client. -/
def NoClient (cfg : α → TestCase) (c : TestCore α) : Prop :=
  ∀ cb, (testDelays (cfg cb)).tcInitDelay = none → ∀ s, c.test cb = some s → clientState s = false

/-- Only a start makes a client of a control block. -/
theorem dispatch_clientState
    {delays : TestDelays} {s : TestSmState} {e : TestSmEvent}
    {entered : TestSmState × List TestSmAction}
    (hentered : testSmDispatchEvent delays s e = some entered)
    (hs : clientState s = false) :
    clientState entered.1 = false := by
  cases s with
  | clToInit | clToOpen | clOpening | clOpen | clSending | clNoSndWin | clToClose | clClosing
  | clClosed =>
      cases hs
  | srvOpening | srvOpen | srvSending | srvNoSndWin | srvClosing | srvClosed | listen | purged =>
      cases e <;> cases hentered <;> rfl

theorem NoClient.move
    (h : NoClient cfg c)
    (delays : TestDelays) (cb : α) (calls : List TimerCall)
    {new : TestSmState}
    (hnew : (testDelays (cfg cb)).tcInitDelay = none → clientState new = false) :
    NoClient cfg (move delays cb c new calls) := by
  intro b hb s hs
  simp only [DelayTimers.move] at hs
  by_cases hbc : b = cb
  · obtain rfl := hbc
    rw [Function.update_self] at hs
    obtain rfl := Option.some.inj hs
    exact hnew hb
  · rw [Function.update_of_ne hbc] at hs
    exact h b hb s hs

theorem NoClient.dispatch
    (h : NoClient cfg c)
    (cb : α) (e : TestSmEvent) :
    NoClient cfg (dispatch cfg cb e c) := by
  unfold DelayTimers.dispatch
  split
  · exact h
  · cases htest : c.test cb with
    | none =>
        exact h
    | some s =>
        cases hentered : testSmDispatchEvent (testDelays (cfg cb)) s e with
        | none =>
            simp only [hentered]
            exact h
        | some entered =>
            simp only [hentered]
            exact h.move _ _ _ fun hinf => dispatch_clientState hentered (h cb hinf s htest)

theorem NoClient.start
    (h : NoClient cfg c)
    (cb : α) (call : SessionStart)
    (hstart : StartsFinite cfg c (.start cb call)) :
    NoClient cfg (start cfg cb call c) := by
  unfold DelayTimers.start
  split_ifs with hfailed hmay
  · exact h
  · refine h.move _ _ _ fun hinf => ?_
    cases call with
    | client =>
        exact absurd hinf (hstart (by simpa using hfailed) hmay)
    | listen =>
        rfl
    | server =>
        rfl
  · exact h

/-- What a core does when time advances is dispatched to its sessions. -/
theorem timeAdvanceCore_elim
    {P : TestCore α → Prop}
    (htimers : ∀ c t, P c → P { c with timers := t })
    (hdispatch : ∀ c cb e, P c → P (dispatch cfg cb e c))
    (handler : TcpHandler α)
    (h : P c) :
    P (timeAdvanceCore cfg handler c) := by
  have hact : ∀ (cb : α) (acts : List CoreAct) (c : TestCore α), P c →
      P (acts.foldl (DelayTimers.act cfg cb) c) := by
    intro cb acts
    induction acts with
    | nil =>
        exact fun c h => h
    | cons a acts ih =>
        intro c h
        refine ih _ ?_
        cases a with
        | wait cycles => exact htimers _ _ h
        | tcpSet timer timeoutUs => exact htimers _ _ h
        | tcpCancel timer => exact htimers _ _ h
        | notify e => exact hdispatch _ _ _ h
  have hbucket : ∀ (kind : TimerKind) (left : Nat) (current : Option α) (c : TestCore α), P c →
      P (walkBucketCore cfg handler kind left current c).1 := by
    intro kind left
    induction left with
    | zero =>
        exact fun _ _ h => h
    | succ left ih =>
        intro current c h
        cases current with
        | none =>
            exact h
        | some cb =>
            refine ih _ _ ?_
            cases kind with
            | test => exact hdispatch _ _ _ (htimers _ _ h)
            | slow => exact hact _ _ _ (htimers _ _ h)
            | rto => exact hact _ _ _ (htimers _ _ h)
  have hwheel : ∀ (kind : TimerKind) (nowIdx fuel left : Nat) (c : TestCore α), P c →
      P (walkWheelCore cfg handler kind nowIdx fuel left c).1 := by
    intro kind nowIdx fuel
    induction fuel with
    | zero =>
        exact fun _ _ h => h
    | succ fuel ih =>
        intro left c h
        have hwalked := hbucket kind left
          ((c.timers.wheels kind).links.first (c.timers.wheels kind).twCurrent) c h
        simp only [walkWheelCore]
        split_ifs with harrived hcut
        · exact h
        · exact hwalked
        · exact ih _ _ (htimers _ _ hwalked)
  have hwheels : ∀ (kinds : List TimerKind) (now : Nat) (c : TestCore α), P c →
      P (kinds.foldl (advanceWheelCore cfg handler now) c) := by
    intro kinds now
    induction kinds with
    | nil =>
        exact fun c h => h
    | cons kind kinds ih =>
        intro c h
        refine ih _ ?_
        unfold advanceWheelCore
        split_ifs with hshould
        · exact htimers _ _ (hwheel kind _ _ _ c h)
        · exact h
  exact htimers _ _ (hwheels [.slow, .rto, .test] c.timers.cycles _ (htimers _ _ h))

theorem NoClient.coreStep
    (h : NoClient cfg c)
    (input : CoreInput α)
    (hstart : StartsFinite cfg c input) :
    NoClient cfg (coreStep cfg c input) := by
  cases input with
  | start cb call =>
      exact h.start cb call hstart
  | act cb a =>
      cases a with
      | wait cycles => exact h
      | tcpSet timer timeoutUs => exact h
      | tcpCancel timer => exact h
      | notify e => exact h.dispatch cb e.event
  | advance handler =>
      exact timeAdvanceCore_elim (P := NoClient cfg) (fun _ _ h => h)
        (fun _ cb e h => h.dispatch cb e) handler h

end Unopened

/-! ## Every run -/

section Runs

variable (cfg : α → TestCase) (cycles cyclesPerUs : Nat) (next : TimerKind → α → Option α)
variable (prev : TimerKind → α → IntrusiveLists.Place Nat α)

end Runs

/-- Whether a client is accepted does not depend on its delays. -/
theorem validate_withDelays
    {sockopts : Nat → Nat → Option Ipv4Sockopt} {imix : Imix} {devCount : Nat}
    {cfg : TestCase} {client : Client}
    (hside : cfg.side = .client client)
    (fuel : Nat) (init up down : Opt Delay) :
    testMgmtValidateTestCase sockopts devCount fuel imix
        { cfg with tcInitDelay := init, tcUptime := up, tcDowntime := down } =
      testMgmtValidateTestCase sockopts devCount fuel imix cfg := by
  have hverdict : validateSide
      { cfg with tcInitDelay := init, tcUptime := up, tcDowntime := down } = validateSide cfg := by
    simp [validateSide, hside]
  have happ : testMgmtValidateApp sockopts fuel imix
      { cfg with tcInitDelay := init, tcUptime := up, tcDowntime := down } =
        testMgmtValidateApp sockopts fuel imix cfg := by
    have hcall : ∀ app, validateCfg (sockopts cfg.tcEthPort cfg.tcId)
        { cfg with tcInitDelay := init, tcUptime := up, tcDowntime := down } imix fuel app =
          validateCfg (sockopts cfg.tcEthPort cfg.tcId) cfg imix fuel app :=
      fun app => validateCfg_of_ids (by rfl) (by rfl) fuel app
    simp only [testMgmtValidateApp, hcall]
  rw [testMgmtValidateTestCase, testMgmtValidateTestCase, hverdict, happ]
  rfl

instance (c : TestCore α) : Decidable (AllAskedInTurn c) :=
  inferInstanceAs (Decidable (∀ a ∈ c.delayed, InTurn 18000000 100 a))

/-- A RAW client with delays. -/
def delayedCase (init up down : Delay) : TestCase :=
  { ManagementApi.rawClientCase with
    tcInitDelay := ⟨true, init⟩
    tcUptime := ⟨true, up⟩
    tcDowntime := ⟨true, down⟩ }

/-- A core just started, with a clock of one cycle in a microsecond. -/
def idleCore : TestCore Nat :=
  startedCore 0 1 (fun _ _ => none) (fun _ _ => .head 0)

/-- The session of control block 7 is opened at once. -/
def openedAtOnce : List (CoreInput Nat) :=
  [.start 7 .client, .act 7 (.notify .connecting), .act 7 (.notify .connected)]

/-- What a finite delay asks of the timer of a session. -/
theorem DelaysHonoured.timeout
    {cfg : α → TestCase} {c : TestCore α} {cb : α} {v : Nat}
    (hhonoured : DelaysHonoured cfg c)
    (hfailed : c.failed = false)
    (hdelay : ((c.test cb).bind delayPhase).bind (phaseDelay (testDelays (cfg cb))) = some v) :
    (pending cb (c.timers.wheels .test).trace).map Arming.timeoutUs = some (v * 1000000) := by
  have hwaiting := hhonoured.waiting hfailed cb
  unfold Waiting at hwaiting
  rw [hdelay] at hwaiting
  obtain ⟨a, ha, -, hus⟩ := hwaiting
  rw [ha, Option.map_some, hus]

/--
Three uptimes that are accepted: 4295 seconds become 33 milliseconds, 3600 seconds never end,
and 1800 seconds are over after 101 microseconds.  An infinite initial delay is none.
-/
theorem delays_not_honoured :
    ¬ DelaysHonoured (fun _ => delayedCase (some 0) (some 4295) none)
        (run (coreStep fun _ => delayedCase (some 0) (some 4295) none) idleCore openedAtOnce) ∧
      ¬ DelaysHonoured (fun _ => delayedCase (some 0) (some 3600) none)
        (run (coreStep fun _ => delayedCase (some 0) (some 3600) none) idleCore openedAtOnce) ∧
      ¬ DelaysHonoured (fun _ => delayedCase (some 0) (some 1800) none)
        (run (coreStep fun _ => delayedCase (some 0) (some 1800) none) idleCore
          (openedAtOnce ++ [.act 7 (.wait 101), .advance fun _ _ _ => []])) ∧
      ¬ DelaysHonoured (fun _ => delayedCase none (some 3) none)
        (run (coreStep fun _ => delayedCase none (some 3) none) idleCore [.start 7 .client]) := by
  refine ⟨fun h => ?_, fun h => ?_, fun h => ?_, fun h => ?_⟩
  · exact absurd (@DelaysHonoured.timeout Nat _ _ _ 7 4295 h (by decide +kernel)
      (by decide +kernel)) (by decide +kernel)
  · exact absurd (@DelaysHonoured.timeout Nat _ _ _ 7 3600 h (by decide +kernel)
      (by decide +kernel)) (by decide +kernel)
  · exact absurd h.onTime (by decide +kernel)
  · have hopened := h.unopened 7 rfl .clToOpen (by decide +kernel) rfl
    cases hopened

end DelayTimers
end Warp17
