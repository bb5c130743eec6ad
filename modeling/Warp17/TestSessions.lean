import Warp17.ConnectionRuns
import Warp17.TestStateMachine

/-!
# TCP sessions of a test case

A session is a TCP control block together with the state that the test case keeps for it.  The
TCP state machine notifies the test case in the middle of its transitions (`TCP_NOTIF`), and
`test_notification` hands most notifications on as events of the test state machine.  The
application is called back on the way and may tell that it has data to send, or no more.

An assertion of the test state machine that fails ends the program: the session then has no test
state any more.
-/

namespace Warp17
namespace TestSessions

open ControlBlock ConnectionRuns TestCaseConfig TestStateMachine

/-- What the application may notify while it is called back. -/
inductive AppSend
  | start
  | stop
deriving DecidableEq, Repr

def AppSend.notif : AppSend → TestNotif
  | .start => .appSendStart
  | .stop => .appSendStop

section Notifications

/-- `test_notification()`, as far as the test state machine is concerned.  A listening block and
the clone of one have their state machine initialized; a request to close goes to TCP. -/
def testNotification {σ : Type*} (dispatch : σ → TestSmEvent → Option σ)
    (enterState : σ → TestSmState → σ) (s : σ) : TestNotif → Option σ
  | .tmrFired => dispatch s .tmrTo
  | .sessConnecting => dispatch s .connecting
  | .sessConnected | .sessConnectedImm => dispatch s .connected
  | .sessListen => some (enterState s .listen)
  | .sessSrvConnected => some (enterState s .srvOpening)
  | .sessClosing => dispatch s .closing
  | .sessClosed => dispatch s .closed
  | .sessWinAvail => dispatch s .sndWin
  | .sessWinUnavail => dispatch s .noSndWin
  | .appSendStart => dispatch s .appSendStart
  | .appSendStop => dispatch s .appSendStop
  | .appClose => some s

variable (delays : TestDelays)

/-- The state after an event; `none` if an assertion fails. -/
def dispatch (state : TestSmState) (event : TestSmEvent) : Option TestSmState :=
  (testSmDispatchEvent delays state event).map Prod.fst

/-- The state after a notification. -/
def notify (state : TestSmState) : TestNotif → Option TestSmState :=
  testNotification (dispatch delays) (fun _ next => (testSmEnterState delays next).1) state

/-- Notifications one after the other. -/
def notified (test : Option TestSmState) (notifs : List TestNotif) : Option TestSmState :=
  test.bind fun state => notifs.foldlM (notify delays) state

/-- The notification among the effects of TCP, if the effect is one. -/
def outputNotif : TcpOutput → List TestNotif
  | .notif n => [n]
  | .pkt _ | .deliver _ | .enter _ | .asserted | .missingSeq _ => []

/-- The notifications of a transition, with those of the application before each effect and at
the end. -/
def sessionNotifs (app : Nat → List AppSend) : Nat → List TcpOutput → List TestNotif
  | i, [] => (app i).map AppSend.notif
  | i, o :: out =>
      (app i).map AppSend.notif ++ outputNotif o ++ sessionNotifs app (i + 1) out

end Notifications

section Sessions

/-- A session; without a test state an assertion has failed. -/
structure TestSession where
  tcb : Tcb
  test : Option TestSmState

/-- What can happen to a session. -/
inductive SessionInput
  /-- an event of TCP, and what the application notifies while it is processed -/
  | tcp (i : ConnInput) (app : Nat → List AppSend)
  /-- the application notifies on its own -/
  | app (n : AppSend)
  /-- the timer of the test state machine -/
  | tmrFired
  /-- `test_sm_purge()` -/
  | purge

variable (cfg : TcpConfig) (delays : TestDelays)

def sessionStep (s : TestSession) : SessionInput → TestSession
  | .tcp i app =>
      let c := connStep cfg s.tcb i
      { tcb := c.tcb, test := notified delays s.test (sessionNotifs app 0 c.out) }
  | .app n => { s with test := notified delays s.test [n.notif] }
  | .tmrFired => { s with test := notified delays s.test [.tmrFired] }
  | .purge => { s with test := s.test.bind (dispatch delays · .purge) }

/-- `test_sm_client_initialize()` on a control block that was never opened. -/
def TestSession.start : TestSession :=
  { tcb := blankTcb, test := some (testSmEnterState delays .clToInit).1 }

end Sessions

@[simp] theorem notified_nil
    (delays : TestDelays) (test : Option TestSmState) :
    notified delays test [] = test := by
  cases test <;> rfl

theorem notified_append
    (delays : TestDelays) (test : Option TestSmState) (ns ns' : List TestNotif) :
    notified delays test (ns ++ ns') = notified delays (notified delays test ns) ns' := by
  cases test with
  | none =>
      rfl
  | some state =>
      simp [notified, List.foldlM_append, Option.bind_eq_bind]

end TestSessions
end Warp17
