import Warp17.GuardedRuns
import Warp17.TailQueues
import Warp17.TestSessions

/-!
# The queues of a client test case

Every control block of a client test case has one list entry, and its test state says which of
the five lists of `test_oper_state_t` it is on: those to initialize, to open, to send, to close,
and the closed ones.  State transitions insert and remove it, and so do the loops that open and
send: one puts a control block back that it failed to open, the other moves one that could not
send to the end.

The lists are read by the loops, which take the first control block and leave it to the
notifications of TCP or UDP to remove it.

**Results**
- `dispatch_places`: the list operations of a transition lead from the list of one state to
  that of the other, but for a purge in `TSTS_CL_TO_CLOSE`.
- `client_queues`: in the runs in which no last control block to close is purged, none fails
  to open and none is connected as a server, every control block is where its state says.
-/

namespace Warp17
namespace ClientQueues

open GuardedRuns TailQueues ControlBlock TestCaseConfig TestStateMachine
open TestSessions (testNotification)

universe u

section States

/-- The list that a control block in this state is on. -/
def testCbq : TestSmState → Option TestCbq
  | .clToInit => some .toInit
  | .clToOpen => some .toOpen
  | .clSending | .srvSending => some .toSend
  | .clToClose => some .toClose
  | .clClosed => some .closed
  | .clOpening | .clOpen | .clNoSndWin | .clClosing => none
  | .srvOpening | .srvOpen | .srvNoSndWin | .srvClosing | .srvClosed => none
  | .listen | .purged => none

/-- The states of a client, and `TSTS_PURGED`. -/
def clientState : TestSmState → Bool
  | .clToInit | .clToOpen | .clOpening | .clOpen | .clSending | .clNoSndWin | .clToClose
  | .clClosing | .clClosed | .purged => true
  | .srvOpening | .srvOpen | .srvSending | .srvNoSndWin | .srvClosing | .srvClosed
  | .listen => false

/-- `test_sm_has_data_pending()` -/
def testSmHasDataPending (state : Option TestSmState) : Bool :=
  state == some .clSending || state == some .srvSending

end States

section Model

variable {ι : Type u} [DecidableEq ι]

/-- The lists of a test case, and the test states of its control blocks; one that is not
allocated has none. -/
structure TestClients (ι : Type u) where
  cbqs : Tailqs TestCbq ι
  testState : ι → Option TestSmState

/-- What an action does to the lists. -/
def testSmAct (cb : ι) (m : Tailqs TestCbq ι) : TestSmAction → Tailqs TestCbq ι
  | .cbqAdd q | .cbqAddNoResched q => tailqInsertTail m q cb
  | .cbqRem q => tailqRemove m q cb
  | .testTmrSet _ | .testTmrCancel | .connUp | .connDown => m

/-- A control block takes a transition. -/
def TestClients.moved
    (s : TestClients ι) (cb : ι) (t : TestSmState × List TestSmAction) : TestClients ι :=
  { cbqs := t.2.foldl (testSmAct cb) s.cbqs
    testState := Function.update s.testState cb (some t.1) }

variable (delays : TestDelays)

/-- `test_sm_enter_state` -/
def enterState (s : TestClients ι) (cb : ι) (state : TestSmState) : TestClients ι :=
  s.moved cb (testSmEnterState delays state)

/-- `test_sm_dispatch_event`; `none` if an assertion fails. -/
def dispatchEvent (s : TestClients ι) (cb : ι) (event : TestSmEvent) : Option (TestClients ι) :=
  (s.testState cb).bind fun state =>
    (testSmDispatchEvent delays state event).map (s.moved cb)

/-- What a notification makes of the clients. -/
def notify (s : TestClients ι) (cb : ι) : TestNotif → Option (TestClients ι) :=
  testNotification (dispatchEvent delays · cb) (enterState delays · cb) s

/-- The notifications of a callback. -/
def notifyAll
    (s : TestClients ι) (cb : ι) (notifs : List TestNotif) : Option (TestClients ι) :=
  notifs.foldlM (notify delays · cb) s

/-- What the callback that opens a connection does. -/
structure OpenOutcome where
  notifs : List TestNotif
  error : Bool

/-- A round of the loop of `test_case_run_open_cb()`, which ends when the list is empty. -/
def openRound (s : TestClients ι) (o : OpenOutcome) : Option (TestClients ι) :=
  match tailqFirst s.cbqs .toOpen with
  | none => some s
  | some cb =>
      (notifyAll delays s cb o.notifs).map fun s =>
        if o.error then { s with cbqs := tailqInsertTail s.cbqs .toOpen cb } else s

/-- A round of the loop of `test_case_run_close_cb()`. -/
def closeRound (s : TestClients ι) (notifs : List TestNotif) : Option (TestClients ι) :=
  match tailqFirst s.cbqs .toClose with
  | none => some s
  | some cb => notifyAll delays s cb notifs

/-- What the callback that sends does, and the application when it is told. -/
structure SentOutcome where
  notifs : List TestNotif
  error : Bool
  dataSent : Bool
  told : List TestNotif

/-- What the application does when it is asked for data; without a buffer nothing is sent. -/
structure SendOutcome where
  notifs : List TestNotif
  sent : Option SentOutcome

/-- Move at the end to try again later. -/
def requeue (s : TestClients ι) (cb : ι) : TestClients ι :=
  { s with cbqs := tailqInsertTail (tailqRemove s.cbqs .toSend cb) .toSend cb }

/-- A round of the loop of `test_case_run_send_cb()`. -/
def sendRound (s : TestClients ι) (o : SendOutcome) : Option (TestClients ι) :=
  match tailqFirst s.cbqs .toSend with
  | none => some s
  | some cb =>
      (notifyAll delays s cb o.notifs).bind fun s =>
        match o.sent with
        | none => some (if testSmHasDataPending (s.testState cb) then requeue s cb else s)
        | some r =>
            (notifyAll delays s cb r.notifs).bind fun s =>
              if r.error && testSmHasDataPending (s.testState cb) then some (requeue s cb)
              else if r.dataSent then notifyAll delays s cb r.told
              else some s

/-- What can happen to a test case. -/
inductive TestCaseInput (ι : Type u)
  /-- `test_sess_init()` -/
  | sessInit (cb : ι)
  | notif (cb : ι) (n : TestNotif)
  /-- `test_sm_purge()` -/
  | purge (cb : ι)
  /-- a purged control block is freed -/
  | cleanup (cb : ι)
  /-- as many rounds as the rate limit allows -/
  | runOpen (rounds : List OpenOutcome)
  | runClose (rounds : List (List TestNotif))
  | runSend (rounds : List SendOutcome)

/-- One step; `none` if an assertion fails. -/
def clientsStep (s : TestClients ι) : TestCaseInput ι → Option (TestClients ι)
  | .sessInit cb => some (enterState delays s cb .clToInit)
  | .notif cb n => notify delays s cb n
  | .purge cb => dispatchEvent delays s cb .purge
  | .cleanup cb => some { s with testState := Function.update s.testState cb none }
  | .runOpen rounds => rounds.foldlM (openRound delays) s
  | .runClose rounds => rounds.foldlM (closeRound delays) s
  | .runSend rounds => rounds.foldlM (sendRound delays) s

/-- The test case, until an assertion fails. -/
def testCaseStep (s : Option (TestClients ι)) (i : TestCaseInput ι) : Option (TestClients ι) :=
  s.bind (clientsStep delays · i)

/-- What can happen in the present state: control blocks are allocated before anything happens
to them, and freed when they are purged. -/
def ClientsLegal (s : TestClients ι) : TestCaseInput ι → Prop
  | .sessInit cb => s.testState cb = none
  | .notif cb _ | .purge cb => s.testState cb ≠ none
  | .cleanup cb => s.testState cb = some .purged
  | .runOpen _ | .runClose _ | .runSend _ => True

/-- The lists of a new test case. -/
def TestClients.new (m : Tailqs TestCbq ι) : TestClients ι :=
  { cbqs := tailqInit m, testState := fun _ => none }

end Model

section Transitions

variable {ι : Type u} [DecidableEq ι] {delays : TestDelays}

/-- The list of a control block after an action; none of its own is left, or joined twice. -/
def cbqAfter (p : Option TestCbq) : TestSmAction → Option (Option TestCbq)
  | .cbqAdd q | .cbqAddNoResched q => if p = none then some (some q) else none
  | .cbqRem q => if p = some q then some none else none
  | .testTmrSet _ | .testTmrCancel | .connUp | .connDown => some p

/-- The timer that is set unless the delay is infinite. -/
theorem cbqAfter_setUnlessInf
    (d : Delay) (p : Option TestCbq) (actions : List TestSmAction) :
    (setUnlessInf d ++ actions).foldlM cbqAfter p = actions.foldlM cbqAfter p := by
  unfold setUnlessInf
  split <;> rfl

theorem enterState_places
    {state : TestSmState}
    (hentry : state ≠ .clToInit)
    (hclosed : state ≠ .clClosed) :
    (testSmEnterState delays state).2.foldlM cbqAfter (testCbq state) =
      some (testCbq (testSmEnterState delays state).1) := by
  cases state <;> first | contradiction | rfl

/-- A client is first put on a list, and then enters the state. -/
theorem clToInit_places :
    (testSmEnterState delays .clToInit).2.foldlM cbqAfter none =
      some (testCbq (testSmEnterState delays .clToInit).1) := by
  by_cases hdelay : tpgDelayVal delays.tcInitDelay = 0 <;> simp [testSmEnterState, hdelay] <;> rfl

variable {p : Option TestCbq} {actions : List TestSmAction} {state : TestSmState}
variable {t : TestSmState × List TestSmAction}

theorem goto_places
    (ht : goto delays actions state = some t)
    (hactions : actions.foldlM cbqAfter p = some (testCbq state))
    (hentry : state ≠ .clToInit)
    (hclosed : state ≠ .clClosed) :
    t.2.foldlM cbqAfter p = some (testCbq t.1) := by
  cases ht
  rw [List.foldlM_append, hactions]
  exact enterState_places hentry hclosed

theorem gotoClosed_places
    (ht : goto delays [] .clClosed = some t) :
    t.2.foldlM cbqAfter none = some (testCbq t.1) := by
  cases ht
  exact cbqAfter_setUnlessInf delays.tcDowntime none [.cbqAdd .closed]

theorem connectedClient_places
    (ht : connectedClient delays actions = some t)
    (hactions : actions.foldlM cbqAfter p = some none) :
    t.2.foldlM cbqAfter p = some (testCbq t.1) := by
  cases ht
  simp only [testSmEnterState, List.append_nil, List.append_assoc]
  rw [List.foldlM_append, hactions]
  exact cbqAfter_setUnlessInf delays.tcUptime none [.connUp]

theorem stay_places
    (ht : stay state = some t) :
    t.2.foldlM cbqAfter (testCbq state) = some (testCbq t.1) := by
  cases ht
  rfl

/-- The list operations of a transition lead from the list of a state to that of the next. -/
theorem dispatch_places
    {event : TestSmEvent}
    (ht : testSmDispatchEvent delays state event = some t)
    (hpurge : ¬ (state = .clToClose ∧ event = .purge)) :
    t.2.foldlM cbqAfter (testCbq state) = some (testCbq t.1) := by
  cases state <;> cases event <;>
    first
      | cases ht; done
      | exact stay_places ht
      | exact gotoClosed_places ht
      | exact connectedClient_places ht rfl
      | exact goto_places ht rfl (by simp) (by simp)
      | exact absurd ⟨rfl, rfl⟩ hpurge

/-- A client stays one, or is purged. -/
theorem dispatch_client
    {event : TestSmEvent}
    (ht : testSmDispatchEvent delays state event = some t)
    (hclient : clientState state = true) :
    clientState t.1 = true := by
  cases state <;> cases event <;>
    first
      | cases ht; done
      | cases ht; rfl
      | cases hclient

end Transitions

section Steps

variable {ι : Type u} [DecidableEq ι] {delays : TestDelays} {s s' : TestClients ι} {cb : ι}

/-- The list that a control block is to be on. -/
def TestClients.place (s : TestClients ι) (cb : ι) : Option TestCbq :=
  (s.testState cb).bind testCbq

/-- Every control block is where its state says, and is a client. -/
structure Listed (s : TestClients ι) : Prop where
  placed : Placed s.cbqs s.place
  client : ∀ cb state, s.testState cb = some state → clientState state = true

/-- The actions of a transition move one control block. -/
theorem placed_acts
    {m : Tailqs TestCbq ι} {place : ι → Option TestCbq} {actions : List TestSmAction}
    {p : Option TestCbq}
    (h : Placed m place)
    (hactions : actions.foldlM cbqAfter (place cb) = some p) :
    Placed (actions.foldl (testSmAct cb) m) (Function.update place cb p) := by
  induction actions generalizing m place with
  | nil =>
      cases hactions
      rwa [Function.update_eq_self]
  | cons action actions ih =>
      rw [List.foldlM_cons, Option.bind_eq_bind, Option.bind_eq_some_iff] at hactions
      obtain ⟨p', hone, hrest⟩ := hactions
      have hplaced : Placed (testSmAct cb m action) (Function.update place cb p') := by
        cases action with
        | cbqAdd q | cbqAddNoResched q =>
            simp only [cbqAfter, Option.ite_none_right_eq_some, Option.some.injEq] at hone
            obtain ⟨hnone, rfl⟩ := hone
            exact h.insertTail hnone
        | cbqRem q =>
            simp only [cbqAfter, Option.ite_none_right_eq_some, Option.some.injEq] at hone
            obtain ⟨hsome, rfl⟩ := hone
            exact h.remove hsome
        | testTmrSet _ | testTmrCancel | connUp | connDown =>
            cases hone
            rw [Function.update_eq_self]
            exact h
      have hnext := ih hplaced (by rw [Function.update_self]; exact hrest)
      rwa [Function.update_idem] at hnext

theorem place_moved
    (s : TestClients ι) (cb : ι) (t : TestSmState × List TestSmAction) :
    (s.moved cb t).place = Function.update s.place cb (testCbq t.1) := by
  funext x
  by_cases hx : x = cb
  · simp [TestClients.place, TestClients.moved, hx]
  · simp [TestClients.place, TestClients.moved, hx]

theorem Listed.moved
    {t : TestSmState × List TestSmAction}
    (h : Listed s)
    (hplaces : t.2.foldlM cbqAfter (s.place cb) = some (testCbq t.1))
    (hclient : clientState t.1 = true) :
    Listed (s.moved cb t) := by
  refine ⟨?_, fun x state hstate => ?_⟩
  · rw [place_moved]
    exact placed_acts h.placed hplaces
  · by_cases hx : x = cb
    · simp only [TestClients.moved, hx, Function.update_self, Option.some.injEq] at hstate
      exact hstate ▸ hclient
    · simp only [TestClients.moved, Function.update_of_ne hx] at hstate
      exact h.client x state hstate

/-- Every event but a purge of a control block that is to be closed. -/
theorem Listed.dispatchEvent
    {event : TestSmEvent}
    (h : Listed s)
    (hs' : ClientQueues.dispatchEvent delays s cb event = some s')
    (hpurge : ¬ (s.testState cb = some .clToClose ∧ event = .purge)) :
    Listed s' := by
  rw [ClientQueues.dispatchEvent, Option.bind_eq_some_iff] at hs'
  obtain ⟨state, hstate, hmap⟩ := hs'
  obtain ⟨t, ht, rfl⟩ := Option.map_eq_some_iff.1 hmap
  refine h.moved ?_ (dispatch_client ht (h.client cb state hstate))
  rw [TestClients.place, hstate]
  exact dispatch_places ht fun hbad => hpurge ⟨hstate.trans (congrArg some hbad.1), hbad.2⟩

/-- The last control block of the list to close must not be purged: it is taken from the list
of the closed ones. -/
theorem Listed.purge
    (h : Listed s)
    (hs' : ClientQueues.dispatchEvent delays s cb .purge = some s')
    (hnext : s.testState cb = some .clToClose → s.cbqs.ptr (.next cb) ≠ none) :
    Listed s' := by
  by_cases hstate : s.testState cb = some .clToClose
  · obtain ⟨b, hb⟩ := Option.ne_none_iff_exists'.1 (hnext hstate)
    rw [ClientQueues.dispatchEvent, hstate] at hs'
    cases hs'
    have hplace : s.place cb = some .toClose := by
      rw [TestClients.place, hstate]
      rfl
    refine ⟨?_, fun x state hx => ?_⟩
    · rw [place_moved]
      exact h.placed.remove_any hplace hb .closed
    · by_cases hxcb : x = cb
      · simp only [TestClients.moved, hxcb, Function.update_self, Option.some.injEq] at hx
        rw [← hx]
        rfl
      · simp only [TestClients.moved, Function.update_of_ne hxcb] at hx
        exact h.client x state hx
  · exact h.dispatchEvent hs' fun hbad => hstate hbad.1

/-- A notification that a client may get. -/
def ClientNotif (n : TestNotif) : Prop :=
  n ≠ .sessListen ∧ n ≠ .sessSrvConnected

instance (n : TestNotif) : Decidable (ClientNotif n) :=
  inferInstanceAs (Decidable (_ ∧ _))

theorem Listed.notify
    {n : TestNotif}
    (h : Listed s)
    (hn : ClientNotif n)
    (hs' : ClientQueues.notify delays s cb n = some s') :
    Listed s' := by
  cases n with
  | sessListen =>
      exact absurd rfl hn.1
  | sessSrvConnected =>
      exact absurd rfl hn.2
  | appClose =>
      cases hs'
      exact h
  | tmrFired | sessConnecting | sessConnected | sessConnectedImm | sessClosing | sessClosed
  | sessWinAvail | sessWinUnavail | appSendStart | appSendStop =>
      exact h.dispatchEvent hs' (by simp)

omit [DecidableEq ι] in
/-- What every round keeps, a loop keeps. -/
theorem listed_foldlM
    {ο : Type*} {round : TestClients ι → ο → Option (TestClients ι)} {Kept : ο → Prop}
    (hround : ∀ s s' o, Listed s → Kept o → round s o = some s' → Listed s')
    {rounds : List ο}
    (h : Listed s)
    (hkept : ∀ o ∈ rounds, Kept o)
    (hs' : rounds.foldlM round s = some s') :
    Listed s' := by
  induction rounds generalizing s with
  | nil =>
      cases hs'
      exact h
  | cons o rounds ih =>
      rw [List.foldlM_cons, Option.bind_eq_bind, Option.bind_eq_some_iff] at hs'
      obtain ⟨s₁, hone, hrest⟩ := hs'
      exact ih (hround s s₁ o h (hkept o List.mem_cons_self) hone)
        (fun x hx => hkept x (List.mem_cons_of_mem _ hx)) hrest

theorem Listed.notifyAll
    {notifs : List TestNotif}
    (h : Listed s)
    (hn : ∀ n ∈ notifs, ClientNotif n)
    (hs' : ClientQueues.notifyAll delays s cb notifs = some s') :
    Listed s' :=
  listed_foldlM (fun _ _ _ h hn hs' => h.notify hn hs') h hn hs'

/-- A control block that has data pending is on the list to send, and is put back there. -/
theorem Listed.requeue
    (h : Listed s)
    (hpending : testSmHasDataPending (s.testState cb) = true) :
    Listed (ClientQueues.requeue s cb) := by
  have hplace : s.place cb = some .toSend := by
    rw [testSmHasDataPending, Bool.or_eq_true, beq_iff_eq, beq_iff_eq] at hpending
    rcases hpending with hstate | hstate <;> rw [TestClients.place, hstate] <;> rfl
  have hback : Placed (tailqInsertTail (tailqRemove s.cbqs .toSend cb) .toSend cb)
      (Function.update (Function.update s.place cb none) cb (some .toSend)) :=
    (h.placed.remove hplace).insertTail (by rw [Function.update_self])
  rw [Function.update_idem, ← hplace, Function.update_eq_self] at hback
  exact ⟨hback, h.client⟩

end Steps

section Rounds

variable {ι : Type u} [DecidableEq ι] {delays : TestDelays} {s s' : TestClients ι}

/-- The connection is opened, and not as a server. -/
def OpenOutcome.Kept (o : OpenOutcome) : Prop :=
  o.error = false ∧ ∀ n ∈ o.notifs, ClientNotif n

def SentOutcome.Kept (r : SentOutcome) : Prop :=
  (∀ n ∈ r.notifs, ClientNotif n) ∧ ∀ n ∈ r.told, ClientNotif n

def SendOutcome.Kept (o : SendOutcome) : Prop :=
  (∀ n ∈ o.notifs, ClientNotif n) ∧ ∀ r ∈ o.sent, r.Kept

instance (o : OpenOutcome) : Decidable o.Kept :=
  inferInstanceAs (Decidable (_ ∧ _))

instance (r : SentOutcome) : Decidable r.Kept :=
  inferInstanceAs (Decidable (_ ∧ _))

instance (o : SendOutcome) : Decidable o.Kept :=
  inferInstanceAs (Decidable (_ ∧ _))

theorem Listed.openRound
    {o : OpenOutcome}
    (h : Listed s)
    (hkept : o.Kept)
    (hs' : ClientQueues.openRound delays s o = some s') :
    Listed s' := by
  unfold ClientQueues.openRound at hs'
  split at hs'
  · cases hs'
    exact h
  · obtain ⟨s₁, hnotifs, rfl⟩ := Option.map_eq_some_iff.1 hs'
    rw [hkept.1, if_neg (by simp)]
    exact h.notifyAll hkept.2 hnotifs

theorem Listed.closeRound
    {notifs : List TestNotif}
    (h : Listed s)
    (hkept : ∀ n ∈ notifs, ClientNotif n)
    (hs' : ClientQueues.closeRound delays s notifs = some s') :
    Listed s' := by
  unfold ClientQueues.closeRound at hs'
  split at hs'
  · cases hs'
    exact h
  · exact h.notifyAll hkept hs'

theorem Listed.sendRound
    {o : SendOutcome}
    (h : Listed s)
    (hkept : o.Kept)
    (hs' : ClientQueues.sendRound delays s o = some s') :
    Listed s' := by
  unfold ClientQueues.sendRound at hs'
  split at hs'
  · cases hs'
    exact h
  · rename_i cb _
    obtain ⟨s₁, hasked, hs'⟩ := Option.bind_eq_some_iff.1 hs'
    have h₁ : Listed s₁ := h.notifyAll hkept.1 hasked
    cases hsent : o.sent with
    | none =>
        rw [hsent] at hs'
        cases hs'
        split
        · rename_i hpending
          exact h₁.requeue hpending
        · exact h₁
    | some r =>
        rw [hsent] at hs'
        have hr : r.Kept := hkept.2 r hsent
        obtain ⟨s₂, hsends, hs'⟩ := Option.bind_eq_some_iff.1 hs'
        have h₂ : Listed s₂ := h₁.notifyAll hr.1 hsends
        split at hs'
        · rename_i hagain
          cases hs'
          rw [Bool.and_eq_true] at hagain
          exact h₂.requeue hagain.2
        · split at hs'
          · exact h₂.notifyAll hr.2 hs'
          · cases hs'
            exact h₂

end Rounds

section Runs

variable {ι : Type u} [DecidableEq ι] {delays : TestDelays} {s s' : TestClients ι}

/-- No last control block to close is purged, none fails to open, and none is connected as a
server or told to listen. -/
def ClientsKept (s : TestClients ι) : TestCaseInput ι → Prop
  | .notif _ n => ClientNotif n
  | .purge cb => s.testState cb = some .clToClose → s.cbqs.ptr (.next cb) ≠ none
  | .runOpen rounds => ∀ o ∈ rounds, o.Kept
  | .runClose rounds => ∀ notifs ∈ rounds, ∀ n ∈ notifs, ClientNotif n
  | .runSend rounds => ∀ o ∈ rounds, o.Kept
  | .sessInit _ | .cleanup _ => True

instance (s : TestClients ι) (i : TestCaseInput ι) : Decidable (ClientsLegal s i) := by
  cases i <;> unfold ClientsLegal <;> infer_instance

instance (s : TestClients ι) (i : TestCaseInput ι) : Decidable (ClientsKept s i) := by
  cases i <;> unfold ClientsKept <;> infer_instance

omit [DecidableEq ι] in
theorem listed_new
    (m : Tailqs TestCbq ι) :
    Listed (TestClients.new m) :=
  ⟨placed_init m, fun _ _ hstate => by cases hstate⟩

theorem Listed.sessInit
    {cb : ι}
    (h : Listed s)
    (hstate : s.testState cb = none) :
    Listed (enterState delays s cb .clToInit) := by
  refine h.moved ?_ ?_
  · rw [TestClients.place, hstate]
    exact clToInit_places
  · unfold testSmEnterState
    by_cases hdelay : tpgDelayVal delays.tcInitDelay = 0 <;> simp [hdelay, clientState]

/-- A purged control block is on no list. -/
theorem Listed.cleanup
    {cb : ι}
    (h : Listed s)
    (hstate : s.testState cb = some .purged) :
    Listed { s with testState := Function.update s.testState cb none } := by
  refine ⟨?_, fun x state hx => ?_⟩
  · have hplace : TestClients.place { s with testState := Function.update s.testState cb none } =
        s.place := by
      funext x
      by_cases hx : x = cb
      · simp [TestClients.place, hx, hstate, testCbq]
      · simp [TestClients.place, hx]
    rw [hplace]
    exact h.placed
  · by_cases hxcb : x = cb
    · simp [hxcb] at hx
    · simp only [Function.update_of_ne hxcb] at hx
      exact h.client x state hx

theorem listed_step
    {i : TestCaseInput ι}
    (h : Listed s)
    (hlegal : ClientsLegal s i)
    (hkept : ClientsKept s i)
    (hs' : clientsStep delays s i = some s') :
    Listed s' := by
  cases i with
  | sessInit cb =>
      cases hs'
      exact h.sessInit hlegal
  | notif cb n =>
      exact h.notify hkept hs'
  | purge cb =>
      exact h.purge hs' hkept
  | cleanup cb =>
      cases hs'
      exact h.cleanup hlegal
  | runOpen rounds =>
      exact listed_foldlM (fun _ _ _ h hk hr => h.openRound hk hr) h hkept hs'
  | runClose rounds =>
      exact listed_foldlM (fun _ _ _ h hk hr => h.closeRound hk hr) h hkept hs'
  | runSend rounds =>
      exact listed_foldlM (fun _ _ _ h hk hr => h.sendRound hk hr) h hkept hs'

/-- Every list is well formed, ends where its tail pointer says, has no control block twice and
those that belong on it; and all are clients. -/
structure QueuesOk (s : TestClients ι) : Prop where
  queues :
    ∀ q, ∃ l, IsTailq s.cbqs q l ∧ l.Nodup ∧
      ∀ cb, cb ∈ l ↔ (s.testState cb).bind testCbq = some q
  client : ∀ cb state, s.testState cb = some state → clientState state = true

omit [DecidableEq ι] in
theorem Listed.queuesOk
    (h : Listed s) :
    QueuesOk s := by
  refine ⟨fun q => ?_, h.client⟩
  obtain ⟨l, hl, hmem⟩ := h.placed q
  exact ⟨l, hl, hl.nodup, hmem⟩

/-- The runs of a client test case whose steps all meet the condition. -/
theorem client_queues
    {m : Tailqs TestCbq ι} {is js : List (TestCaseInput ι)}
    (hrun :
      Guarded (testCaseStep delays) (fun s i => ∀ t ∈ s, ClientsLegal t i ∧ ClientsKept t i)
        (some (.new m)) is)
    (hjs : js <+: is) :
    ∀ t ∈ run (testCaseStep delays) (some (.new m)) js, QueuesOk t := by
  obtain ⟨ks, rfl⟩ := hjs
  have hlisted := run_invariant_prefix (fun s => ∀ t ∈ s, Listed t)
    (fun s i hs hok t ht => ?_) (fun t ht => ?_) hrun
  · exact fun t ht => (hlisted t ht).queuesOk
  · obtain ⟨s₀, hs₀, hstep⟩ := Option.bind_eq_some_iff.1 ht
    exact listed_step (hs s₀ hs₀) (hok s₀ hs₀).1 (hok s₀ hs₀).2 hstep
  · cases ht
    exact listed_new m

/-- No initialization delay, and an uptime of a second. -/
def briefDelays : TestDelays :=
  { tcInitDelay := some 0, tcUptime := some 1, tcDowntime := none }

/-- What the memory of the lists held before. -/
def staleCbqs : Tailqs TestCbq (Fin 2) :=
  { ptr := fun _ => none, last := .first, prev := fun _ => .first .toInit }

/-- Two clients are opened and connected, and their uptime is over. -/
def twoToClose : List (TestCaseInput (Fin 2)) :=
  [.sessInit 0, .sessInit 1,
   .runOpen [⟨[.sessConnecting], false⟩, ⟨[.sessConnecting], false⟩],
   .notif 0 .sessConnected, .notif 1 .sessConnected, .notif 0 .tmrFired, .notif 1 .tmrFired]

/-- The test is stopped: the first client to close is purged from the head of the list. -/
theorem client_queues_purged :
    Guarded (testCaseStep briefDelays) (fun s i => ∀ t ∈ s, ClientsLegal t i ∧ ClientsKept t i)
        (some (.new staleCbqs)) (twoToClose ++ [.purge 0, .cleanup 0]) ∧
      ∀ t ∈ run (testCaseStep briefDelays) (some (.new staleCbqs))
        (twoToClose ++ [.purge 0, .cleanup 0]), QueuesOk t := by
  have hrun : Guarded (testCaseStep briefDelays)
      (fun s i => ∀ t ∈ s, ClientsLegal t i ∧ ClientsKept t i)
      (some (.new staleCbqs)) (twoToClose ++ [.purge 0, .cleanup 0]) := by decide +kernel
  exact ⟨hrun, client_queues hrun List.prefix_rfl⟩

/-- The second one is the last: the tail of its list stays at the purged control block. -/
theorem purge_breaks_queues :
    Guarded (testCaseStep briefDelays) (fun s i => ∀ t ∈ s, ClientsLegal t i)
        (some (.new staleCbqs)) (twoToClose ++ [.purge 0, .cleanup 0, .purge 1]) ∧
      ∃ t ∈ run (testCaseStep briefDelays) (some (.new staleCbqs))
          (twoToClose ++ [.purge 0, .cleanup 0, .purge 1]),
        ¬ QueuesOk t := by
  refine ⟨by decide +kernel, _, rfl, fun h => ?_⟩
  obtain ⟨l, hl, -, hmem⟩ := h.queues .toClose
  have hin := (hmem 1).1 (mem_cells_next.1 hl.linked.end_mem)
  cases hin

end Runs

end ClientQueues
end Warp17
