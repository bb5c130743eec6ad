import Warp17.TestCaseConfig

/-!
# The test state machine of a session

`tpg_tests_sm.c`.  Beside its TCP or UDP state, every control block of a test case has a state
of its own: whether the session waits to be opened, is open, has data to send, is to be closed,
and so on.  The engine, the L4 layer and the application dispatch events; a state function
answers each event with list operations, timer calls, callbacks of the application and a next
state, or fails an assertion (`none`).

A state function that enters another state runs that state's entry actions last, so the actions
of a transition are one list in the order of the code.  The callbacks `conn_up` and `conn_down`
are actions too: the events that they dispatch come after the transition.
-/

namespace Warp17
namespace TestStateMachine

open TestCaseConfig

/-- `TSTS_*` -/
inductive TestSmState
  | clToInit
  | clToOpen
  | clOpening
  | clOpen
  | clSending
  | clNoSndWin
  | clToClose
  | clClosing
  | clClosed
  | srvOpening
  | srvOpen
  | srvSending
  | srvNoSndWin
  | srvClosing
  | srvClosed
  | listen
  | purged
deriving DecidableEq, Repr

/-- `TSTE_*`, but for `TSTE_ENTER_STATE`, which only `test_sm_enter_state` dispatches. -/
inductive TestSmEvent
  | tmrTo
  | connecting
  | connected
  | closing
  | closed
  | noSndWin
  | sndWin
  | appSendStart
  | appSendStop
  | purge
deriving DecidableEq, Repr

/-- The lists of `test_case_info_t` that a control block can be on. -/
inductive TestCbq
  | toInit
  | toOpen
  | toSend
  | toClose
  | closed
deriving DecidableEq, Repr

/-- What a transition does. -/
inductive TestSmAction
  | cbqAdd (queue : TestCbq)
  /-- `TEST_CBQ_ADD_TO_OPEN_NO_RESCHED` -/
  | cbqAddNoResched (queue : TestCbq)
  | cbqRem (queue : TestCbq)
  /-- `L4CB_TEST_TMR_SET` -/
  | testTmrSet (timeoutUs : Nat)
  /-- `L4CB_TEST_TMR_CANCEL`, if it is set -/
  | testTmrCancel
  | connUp
  | connDown
deriving DecidableEq, Repr

/-- The delays of a test case. -/
structure TestDelays where
  tcInitDelay : Delay
  tcUptime : Delay
  tcDowntime : Delay
deriving DecidableEq, Repr

/-- `TPG_DELAY_VAL`: an infinite delay leaves 0 in the field. -/
def tpgDelayVal (d : Delay) : Nat :=
  d.getD 0

/-- `TPG_DELAY_VAL(d) * TPG_SEC_TO_USEC`, in 32 bits. -/
def tpgDelayUs (d : Delay) : Nat :=
  tpgDelayVal d * 1000000 % 2 ^ 32

/-- `if (!TPG_DELAY_IS_INF(d)) L4CB_TEST_TMR_SET(...)` -/
def setUnlessInf (d : Delay) : List TestSmAction :=
  if d.isNone then [] else [.testTmrSet (tpgDelayUs d)]

variable (delays : TestDelays)

/-- `test_sm_enter_state`: the state that is left when it returns, and what it did. -/
def testSmEnterState : TestSmState → TestSmState × List TestSmAction
  | .clToInit =>
      if tpgDelayVal delays.tcInitDelay = 0 then (.clToOpen, [.cbqAddNoResched .toOpen])
      else (.clToInit, [.cbqAdd .toInit, .testTmrSet (tpgDelayUs delays.tcInitDelay)])
  | .clClosed => (.clClosed, setUnlessInf delays.tcDowntime ++ [.cbqAdd .closed])
  | .purged => (.purged, [.testTmrCancel])
  -- an intermediate state
  | .srvOpening => (.srvOpen, [.connUp])
  | state => (state, [])

/-- `actions`, then on to `state`. -/
def goto (actions : List TestSmAction) (state : TestSmState) :
    Option (TestSmState × List TestSmAction) :=
  let entered := testSmEnterState delays state
  some (entered.1, actions ++ entered.2)

/-- The event is ignored. -/
def stay (state : TestSmState) : Option (TestSmState × List TestSmAction) :=
  some (state, [])

/-- On to `TSTS_CL_OPEN`, with the uptime running and the application told last. -/
def connectedClient (actions : List TestSmAction) : Option (TestSmState × List TestSmAction) :=
  goto delays (actions ++ setUnlessInf delays.tcUptime) .clOpen |>.map fun entered =>
    (entered.1, entered.2 ++ [.connUp])

def clientToInit : TestSmEvent → Option (TestSmState × List TestSmAction)
  | .tmrTo => goto delays [.cbqRem .toInit, .cbqAdd .toOpen] .clToOpen
  | .purge => goto delays [.cbqRem .toInit] .purged
  | _ => none

def clientToOpen : TestSmEvent → Option (TestSmState × List TestSmAction)
  | .connecting => goto delays [.cbqRem .toOpen] .clOpening
  | .connected => connectedClient delays [.cbqRem .toOpen]
  | .purge => goto delays [.cbqRem .toOpen] .purged
  | _ => none

def clientOpening : TestSmEvent → Option (TestSmState × List TestSmAction)
  | .connected => connectedClient delays []
  | .closing => goto delays [] .clClosing
  | .purge => goto delays [] .purged
  | _ => none

def clientOpen : TestSmEvent → Option (TestSmState × List TestSmAction)
  | .appSendStart => goto delays [.cbqAdd .toSend] .clSending
  | .closing => goto delays [.testTmrCancel, .connDown] .clClosing
  | .sndWin => stay .clOpen
  | .noSndWin => stay .clOpen
  | .tmrTo => goto delays [.cbqAdd .toClose] .clToClose
  | .purge => goto delays [] .purged
  | _ => none

def clientSending : TestSmEvent → Option (TestSmState × List TestSmAction)
  | .closing => goto delays [.testTmrCancel, .cbqRem .toSend, .connDown] .clClosing
  | .sndWin => stay .clSending
  | .noSndWin => goto delays [.cbqRem .toSend] .clNoSndWin
  | .tmrTo => goto delays [.cbqRem .toSend, .cbqAdd .toClose] .clToClose
  | .appSendStop => goto delays [.cbqRem .toSend] .clOpen
  | .purge => goto delays [.cbqRem .toSend] .purged
  | _ => none

def clientNoSndWin : TestSmEvent → Option (TestSmState × List TestSmAction)
  | .closing => goto delays [.testTmrCancel, .connDown] .clClosing
  | .tmrTo => goto delays [.cbqAdd .toClose] .clToClose
  | .sndWin => goto delays [.cbqAdd .toSend] .clSending
  | .appSendStop => goto delays [] .clOpen
  | .purge => goto delays [] .purged
  | _ => none

def clientToClose : TestSmEvent → Option (TestSmState × List TestSmAction)
  | .closing => goto delays [.connDown, .cbqRem .toClose] .clClosing
  | .appSendStart => stay .clToClose
  | .appSendStop => stay .clToClose
  -- the source removes it from the list of closed sessions
  | .purge => goto delays [.cbqRem .closed] .purged
  | .sndWin => stay .clToClose
  | .noSndWin => stay .clToClose
  | _ => none

def clientClosing : TestSmEvent → Option (TestSmState × List TestSmAction)
  | .closed => goto delays [] .clClosed
  | .appSendStart => stay .clClosing
  | .appSendStop => stay .clClosing
  | .purge => goto delays [] .purged
  | _ => none

def clientClosed : TestSmEvent → Option (TestSmState × List TestSmAction)
  | .tmrTo => goto delays [.cbqRem .closed, .cbqAdd .toOpen] .clToOpen
  | .purge => goto delays [.cbqRem .closed] .purged
  | _ => none

def serverOpen : TestSmEvent → Option (TestSmState × List TestSmAction)
  | .appSendStart => goto delays [.cbqAdd .toSend] .srvSending
  | .closing => goto delays [.connDown] .srvClosing
  | .sndWin => stay .srvOpen
  | .noSndWin => stay .srvOpen
  | .purge => goto delays [] .purged
  | _ => none

def serverSending : TestSmEvent → Option (TestSmState × List TestSmAction)
  | .closing => goto delays [.cbqRem .toSend, .connDown] .srvClosing
  | .sndWin => stay .srvSending
  | .noSndWin => goto delays [.cbqRem .toSend] .srvNoSndWin
  | .appSendStop => goto delays [.cbqRem .toSend] .srvOpen
  | .purge => goto delays [.cbqRem .toSend] .purged
  | _ => none

def serverNoSndWin : TestSmEvent → Option (TestSmState × List TestSmAction)
  | .closing => goto delays [.testTmrCancel, .connDown] .srvClosing
  | .sndWin => goto delays [.cbqAdd .toSend] .srvSending
  | .appSendStop => goto delays [] .srvOpen
  | .purge => goto delays [] .purged
  | _ => none

def serverClosing : TestSmEvent → Option (TestSmState × List TestSmAction)
  | .closed => goto delays [] .srvClosed
  | .appSendStart => stay .srvClosing
  | .appSendStop => stay .srvClosing
  | .purge => goto delays [] .purged
  | _ => none

def listenState : TestSmEvent → Option (TestSmState × List TestSmAction)
  | .purge => goto delays [] .purged
  | _ => none

def purgedState : TestSmEvent → Option (TestSmState × List TestSmAction)
  | .closing => stay .purged
  | .closed => stay .purged
  | _ => none

/-- `test_sm_dispatch_event`, through `test_sm_function_array`. -/
def testSmDispatchEvent : TestSmState → TestSmEvent → Option (TestSmState × List TestSmAction)
  | .clToInit => clientToInit delays
  | .clToOpen => clientToOpen delays
  | .clOpening => clientOpening delays
  | .clOpen => clientOpen delays
  | .clSending => clientSending delays
  | .clNoSndWin => clientNoSndWin delays
  | .clToClose => clientToClose delays
  | .clClosing => clientClosing delays
  | .clClosed => clientClosed delays
  | .srvOpening => fun _ => none
  | .srvOpen => serverOpen delays
  | .srvSending => serverSending delays
  | .srvNoSndWin => serverNoSndWin delays
  | .srvClosing => serverClosing delays
  | .srvClosed => fun _ => none
  | .listen => listenState delays
  | .purged => purgedState

end TestStateMachine
end Warp17
