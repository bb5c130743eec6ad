import Mathlib.Tactic
import Warp17.GuardedRuns
import Warp17.ReplyCounters

/-!
# The statistics of a test case

Every packet core counts the events of a test case for itself; the test manager and the command
line ask the cores for their counters by messages that block until they are handled.  Modelled
are `test_notification` and the handlers `test_case_stats_req_cb`,
`test_case_rates_stats_req_cb` and `test_case_states_stats_req_cb` of src/src/tpg_tests.c, and
`test_update_status` of src/src/tpg_test_mgmt.c, which adds the replies up.

`test_start_cb` has the test case initialised on every core before it starts polling; a server
opens its listeners in that phase, on every core the same ones in the same order.  A handler
runs between two events of its core, while events and requests on different cores follow each
other in any order.  The averages that `test_update_rates` computes from the replies, the census
of control blocks in the reply of `test_case_states_stats_req_cb`, the times and the latencies
are left out.

Beside the state of the source stand `happened`, the number of events of each core, and
`reported`, the part of them that the replies have handed over, likewise for the rates; `tried`
says which listeners a core has opened, and `polled` whether a poll has been completed.

**Results**
- `statsReq_iff`, `endPoll_iff`, `statesReq_iff`: when a request keeps the statistics right.
- `step_iff`, `step_progress`: the same for every step, and the invariant of the polls.
- `statistics_ok`: for every number of cores and every order of events and requests.
-/

namespace Warp17
namespace StatsRequests

open GuardedRuns ReplyCounters

/-- The counters of `tpg_gen_stats_t`. -/
inductive GenCounter
  | gsUp
  | gsEstab
  | gsDown
  | gsFailed
  | gsDataFailed
  | gsDataNull
deriving DecidableEq, Repr

/-- The counters of `tpg_rate_stats_t`. -/
inductive RateCounter
  | rsEstabPerS
  | rsClosedPerS
  | rsDataPerS
deriving DecidableEq, Repr

abbrev RateCounter.width : RateCounter → Nat
  | _ => 32

/-- The counters of `tpg_raw_stats_t` and `tpg_http_stats_t`. -/
inductive AppCounter
  | rstsReqCnt
  | rstsRespCnt
  | rstsTstampNoPhysAddr
  | rstsTstampNoMbuf
  | rstsTstampNoWin
  | hstsReqCnt
  | hstsRespCnt
  | hstsInvalidMsgCnt
  | hstsNoContentLenCnt
  | hstsTransferEncCnt
  | hstsNoReq
  | hstsNoResp
deriving DecidableEq, Repr

def AppCounter.width : AppCounter → Nat
  | .rstsReqCnt => 64
  | .rstsRespCnt => 64
  | .hstsReqCnt => 64
  | .hstsRespCnt => 64
  | _ => 32

/-- What a stats request asks for; an IMIX test case has several applications. -/
inductive StatsCounter (apps : Nat)
  | gen (counter : GenCounter)
  | app (i : Fin apps) (counter : AppCounter)
deriving DecidableEq, Repr

namespace StatsCounter

variable {apps : Nat}

abbrev width : StatsCounter apps → Nat
  | .gen _ => 32
  | .app _ counter => counter.width

/-- The sessions, or the listeners, that are up. -/
abbrev up : StatsCounter apps := .gen .gsUp

end StatsCounter

abbrev Stats (apps : Nat) := (c : StatsCounter apps) → BitVec c.width

abbrev RateStats := (c : RateCounter) → BitVec c.width

/-- The counters of `test_case_info_t` on one core. -/
structure TestCaseInfo (apps : Nat) where
  stats : Stats apps
  tciRateStats : RateStats

/-- What the core counts: a notification, a batch of data, or a counter of an application. -/
inductive Counted (apps : Nat)
  | sessUp
  | sessDown
  | sessFailed
  | dataFailed
  | dataNull
  | sessConnected
  | sessServerConnected
  | sessClosed
  | dataSent (sendCnt : Nat)
  | app (i : Fin apps) (counter : AppCounter)
deriving DecidableEq, Repr

section Counts

variable {apps : Nat}

/-- What is added to the counters of a stats request. -/
def Counted.stats : Counted apps → StatsCounter apps → Nat
  | .sessUp => Pi.single (.gen .gsUp) 1
  | .sessDown => Pi.single (.gen .gsDown) 1
  | .sessFailed => Pi.single (.gen .gsFailed) 1
  | .dataFailed => Pi.single (.gen .gsDataFailed) 1
  | .dataNull => Pi.single (.gen .gsDataNull) 1
  | .sessConnected => Pi.single (.gen .gsEstab) 1
  | .sessServerConnected => Pi.single (.gen .gsEstab) 1
  | .sessClosed => 0
  | .dataSent _ => 0
  | .app i counter => Pi.single (.app i counter) 1

/-- What is added to the counters of a rates request. -/
def Counted.rates : Counted apps → RateCounter → Nat
  | .sessConnected => Pi.single .rsEstabPerS 1
  | .sessServerConnected => Pi.single .rsEstabPerS 1
  | .sessClosed => Pi.single .rsClosedPerS 1
  | .dataSent sendCnt => Pi.single .rsDataPerS sendCnt
  | _ => 0

/-- `test_notification`, and the other places where a core counts. -/
def TestCaseInfo.counted (info : TestCaseInfo apps) (e : Counted apps) : TestCaseInfo apps where
  stats := count info.stats e.stats
  tciRateStats := count info.tciRateStats e.rates

/-- The reply to a stats request, and the counters cleared. -/
def testCaseStatsReqCb (info : TestCaseInfo apps) : Stats apps × TestCaseInfo apps :=
  (info.stats, { info with stats := fun _ => 0 })

/-- The reply to a rates request, and the counters cleared. -/
def testCaseRatesStatsReqCb (info : TestCaseInfo apps) : RateStats × TestCaseInfo apps :=
  (info.tciRateStats, { info with tciRateStats := fun _ => 0 })

/-- A states request clears the rates as well; its reply does not hold them. -/
def testCaseStatesStatsReqCb (info : TestCaseInfo apps) : TestCaseInfo apps :=
  { info with tciRateStats := fun _ => 0 }

end Counts

/-- Where the test manager is: `left` are the cores that a poll has still to ask. -/
inductive Phase (cores : Nat)
  | init
  | idle
  | polling (left : List (Fin cores)) (srvUp : BitVec 32)
deriving DecidableEq, Repr

/-- The cores and the test manager, with the history of what was counted. -/
structure System (cores apps : Nat) where
  isServer : Bool
  core : Fin cores → TestCaseInfo apps
  total : Stats apps
  phase : Phase cores
  happened : Fin cores → StatsCounter apps → Nat
  reported : Fin cores → StatsCounter apps → Nat
  ratesHappened : Fin cores → RateCounter → Nat
  ratesReported : Fin cores → RateCounter → Nat
  tried : Fin cores → List Bool
  polled : Bool

/-- A step: `manager` is the next step of the test manager in its polls. -/
inductive Input (cores apps : Nat)
  | listen (i : Fin cores) (opened : Bool)
  | start
  | counted (i : Fin cores) (e : Counted apps)
  | manager
  | ratesReq (i : Fin cores)
  | statesReq (i : Fin cores)
deriving DecidableEq, Repr

section Steps

variable {cores apps : Nat}

def System.setCore (s : System cores apps) (i : Fin cores) (info : TestCaseInfo apps) :
    System cores apps :=
  { s with core := Function.update s.core i info }

/-- A core counts. -/
def System.counted (s : System cores apps) (i : Fin cores) (e : Counted apps) :
    System cores apps :=
  { s.setCore i ((s.core i).counted e) with
    happened := Function.update s.happened i fun c => s.happened i c + e.stats c
    ratesHappened := Function.update s.ratesHappened i fun c => s.ratesHappened i c + e.rates c }

/-- `test_case_start_tcp_server` or its sibling for UDP, for the next listener of a core. -/
def System.listen (s : System cores apps) (i : Fin cores) (opened : Bool) : System cores apps :=
  { s.counted i (if opened then .sessUp else .sessFailed) with
    tried := Function.update s.tried i (s.tried i ++ [opened]) }

/-- What `test_update_status` makes of one reply; the sessions up of a server wait. -/
def addReply (isServer : Bool) (total reply : Stats apps) : Stats apps :=
  fun c => if isServer = true ∧ c = .up then total c else total c + reply c

/-- `test_update_status` asks the core `i`. -/
def System.statsReq (s : System cores apps) (i : Fin cores) (left : List (Fin cores))
    (srvUp : BitVec 32) : System cores apps :=
  let (reply, info) := testCaseStatsReqCb (s.core i)
  { s.setCore i info with
    total := addReply s.isServer s.total reply
    phase := .polling left (if reply .up > srvUp then reply .up else srvUp)
    reported := Function.update s.reported i (s.happened i) }

/-- `test_update_status` has asked every core. -/
def System.endPoll (s : System cores apps) (srvUp : BitVec 32) : System cores apps :=
  { s with
    total :=
      if s.isServer then Function.update s.total .up (s.total .up + srvUp) else s.total
    phase := .idle
    polled := true }

def System.manager (s : System cores apps) : System cores apps :=
  match s.phase with
  | .init => s
  | .idle => { s with phase := .polling (List.finRange cores) 0 }
  | .polling (i :: left) srvUp => s.statsReq i left srvUp
  | .polling [] srvUp => s.endPoll srvUp

def System.ratesReq (s : System cores apps) (i : Fin cores) : System cores apps :=
  { s.setCore i (testCaseRatesStatsReqCb (s.core i)).2 with
    ratesReported := Function.update s.ratesReported i (s.ratesHappened i) }

def System.statesReq (s : System cores apps) (i : Fin cores) : System cores apps :=
  s.setCore i (testCaseStatesStatsReqCb (s.core i))

/-- Listeners are opened while the cores are initialised; only a client brings sessions up. -/
def step (s : System cores apps) : Input cores apps → System cores apps
  | .listen i opened =>
      if s.isServer = true ∧ s.phase = .init then s.listen i opened else s
  | .start => if s.phase = .init then { s with phase := .idle } else s
  | .counted i e => if s.isServer = true ∧ e = .sessUp then s else s.counted i e
  | .manager => s.manager
  | .ratesReq i => s.ratesReq i
  | .statesReq i => s.statesReq i

/-- The counters when `test_case_init_cb` and `test_start_cb` have cleared them. -/
def cleared (cores apps : Nat) (isServer : Bool) : System cores apps where
  isServer := isServer
  core := fun _ => ⟨fun _ => 0, fun _ => 0⟩
  total := fun _ => 0
  phase := .init
  happened := fun _ _ => 0
  reported := fun _ _ => 0
  ratesHappened := fun _ _ => 0
  ratesReported := fun _ _ => 0
  tried := fun _ => []
  polled := false

/-! ## What is asked of a run -/

/-- The listeners that a core has opened, by their place in the configuration. -/
def System.opened (s : System cores apps) (i : Fin cores) : Finset Nat :=
  (Finset.range (s.tried i).length).filter fun j => (s.tried i)[j]? = some true

/-- The listeners that some core has opened. -/
def System.listeners (s : System cores apps) : Finset Nat :=
  Finset.univ.biUnion s.opened

/--
Every event is handed over by one reply: what a core holds is what happened since its last
reply.  The totals are what the replies have handed over, and after a poll the total of a server
is the number of its listeners.
-/
structure Conserved (s : System cores apps) : Prop where
  stats : Balanced (fun i => (s.core i).stats) s.happened s.reported
  rates : Balanced (fun i => (s.core i).tciRateStats) s.ratesHappened s.ratesReported
  totals : ∀ c, ¬(s.isServer = true ∧ c = .up) → (s.total c).toNat = ∑ i, s.reported i c
  serverUp : s.isServer = true → s.polled = true → (s.total .up).toNat = s.listeners.card

/-- The counters of a core have room for what it counts. -/
def HasRoom (s : System cores apps) (i : Fin cores) (e : Counted apps) : Prop :=
  (∀ c, ((s.core i).stats c).toNat + e.stats c < 2 ^ c.width) ∧
    ∀ c, ((s.core i).tciRateStats c).toNat + e.rates c < 2 ^ c.width

/-- The totals have room for the reply of a core. -/
def TotalsHaveRoom (s : System cores apps) (i : Fin cores) : Prop :=
  ∀ c, ¬(s.isServer = true ∧ c = .up) →
    (s.total c).toNat + ((s.core i).stats c).toNat < 2 ^ c.width

/-- Some core has opened every listener that any core has opened. -/
def OneOpenedAll (s : System cores apps) : Prop :=
  IsEmpty (Fin cores) ∨ ∃ i, ∀ j, s.opened j ⊆ s.opened i

/-- The condition on a step. -/
def StepMeets (s : System cores apps) : Input cores apps → Prop
  | .listen i opened =>
      s.isServer = true ∧ s.phase = .init →
        HasRoom s i (if opened then .sessUp else .sessFailed)
  | .start => True
  | .counted i e => ¬(s.isServer = true ∧ e = .sessUp) → HasRoom s i e
  | .manager =>
      match s.phase with
      | .polling (i :: _) _ => TotalsHaveRoom s i
      | .polling [] _ => s.isServer = true → OneOpenedAll s
      | _ => True
  | .ratesReq _ => True
  | .statesReq i => ∀ c, (s.core i).tciRateStats c = 0

end Steps

/-! ## One step -/

section OneStep

variable {cores apps : Nat} {s : System cores apps}

theorem setCore_stats
    (i : Fin cores) {info : TestCaseInfo apps} {stats : Stats apps}
    (hinfo : info.stats = stats) :
    (fun j => ((s.setCore i info).core j).stats) =
      Function.update (fun j => (s.core j).stats) i stats := by
  rw [← hinfo]
  exact Function.comp_update TestCaseInfo.stats s.core i info

theorem setCore_rates
    (i : Fin cores) {info : TestCaseInfo apps} {rates : RateStats}
    (hinfo : info.tciRateStats = rates) :
    (fun j => ((s.setCore i info).core j).tciRateStats) =
      Function.update (fun j => (s.core j).tciRateStats) i rates := by
  rw [← hinfo]
  exact Function.comp_update TestCaseInfo.tciRateStats s.core i info

/-- A step that leaves the counters of a stats request alone. -/
theorem setCore_same_stats
    (i : Fin cores) (info : TestCaseInfo apps)
    (hinfo : info.stats = (s.core i).stats) :
    (fun j => ((s.setCore i info).core j).stats) = fun j => (s.core j).stats := by
  rw [setCore_stats i hinfo]
  exact Function.update_eq_self i fun j => (s.core j).stats

theorem setCore_same_rates
    (i : Fin cores) (info : TestCaseInfo apps)
    (hinfo : info.tciRateStats = (s.core i).tciRateStats) :
    (fun j => ((s.setCore i info).core j).tciRateStats) = fun j => (s.core j).tciRateStats := by
  rw [setCore_rates i hinfo]
  exact Function.update_eq_self i fun j => (s.core j).tciRateStats

/-- What counting an event does to the counters, whatever else stays. -/
theorem counted_balanced_iff
    (hs : Conserved s)
    (i : Fin cores) (e : Counted apps) :
    (Balanced (fun j => ((s.counted i e).core j).stats) (s.counted i e).happened s.reported ∧
        Balanced (fun j => ((s.counted i e).core j).tciRateStats) (s.counted i e).ratesHappened
          s.ratesReported) ↔
      HasRoom s i e := by
  refine and_congr ?_ ?_
  · exact (balanced_congr (setCore_stats i rfl)).trans (balanced_count_iff hs.stats i e.stats)
  · exact (balanced_congr (setCore_rates i rfl)).trans (balanced_count_iff hs.rates i e.rates)

theorem counted_iff
    (hs : Conserved s)
    (i : Fin cores) (e : Counted apps) :
    Conserved (s.counted i e) ↔ HasRoom s i e := by
  rw [← counted_balanced_iff hs i e]
  constructor
  · intro h
    exact ⟨h.stats, h.rates⟩
  · rintro ⟨hstats, hrates⟩
    exact ⟨hstats, hrates, hs.totals, hs.serverUp⟩

theorem listen_iff
    (hs : Conserved s)
    (hpolled : s.polled = false)
    (i : Fin cores) (opened : Bool) :
    Conserved (s.listen i opened) ↔ HasRoom s i (if opened then .sessUp else .sessFailed) := by
  rw [← counted_balanced_iff hs i]
  constructor
  · intro h
    exact ⟨h.stats, h.rates⟩
  · rintro ⟨hstats, hrates⟩
    refine ⟨hstats, hrates, hs.totals, fun _ htrue => ?_⟩
    rw [show (s.listen i opened).polled = s.polled from rfl, hpolled] at htrue
    cases htrue

/-- A reply that is added up keeps the totals exact unless one of them runs over. -/
theorem addReply_iff
    (hs : Conserved s)
    (i : Fin cores) :
    (∀ c, ¬(s.isServer = true ∧ c = .up) →
        (addReply s.isServer s.total (s.core i).stats c).toNat =
          ∑ j, Function.update s.reported i (s.happened i) j c) ↔
      TotalsHaveRoom s i := by
  refine forall_congr' fun c => imp_congr_right fun hc => ?_
  have hsum : ∑ j, Function.update s.reported i (s.happened i) j c =
      (s.total c).toNat + ((s.core i).stats c).toNat := by
    have hsplit := sum_update (fun j => s.reported j c) i _ _ (hs.stats i c)
    rw [hs.totals c hc, Nat.add_comm, ← hsplit]
    refine Finset.sum_congr rfl fun j _ => ?_
    by_cases hj : j = i
    · subst hj
      rw [Function.update_self, Function.update_self]
    · rw [Function.update_of_ne hj, Function.update_of_ne hj]
  rw [hsum, addReply, if_neg hc, toNat_add_eq_iff]

theorem statsReq_iff
    (hs : Conserved s)
    (i : Fin cores) (left : List (Fin cores)) (srvUp : BitVec 32) :
    Conserved (s.statsReq i left srvUp) ↔ TotalsHaveRoom s i := by
  rw [← addReply_iff hs i]
  constructor
  · intro h
    exact h.totals
  · intro htotals
    constructor
    · exact (balanced_congr (setCore_stats i rfl)).2 (balanced_reply hs.stats i)
    · exact (balanced_congr (setCore_same_rates i (testCaseStatsReqCb (s.core i)).2 rfl)).2
        hs.rates
    · exact htotals
    · intro hserver hpolled
      rw [← show s.listeners = (s.statsReq i left srvUp).listeners from rfl,
        ← hs.serverUp hserver hpolled]
      have hup : (s.statsReq i left srvUp).total .up =
          addReply s.isServer s.total (s.core i).stats .up := rfl
      rw [hup, addReply, if_pos ⟨hserver, rfl⟩]

theorem ratesReq_conserved
    (hs : Conserved s)
    (i : Fin cores) :
    Conserved (s.ratesReq i) := by
  constructor
  · exact (balanced_congr (setCore_same_stats i (testCaseRatesStatsReqCb (s.core i)).2 rfl)).2
      hs.stats
  · exact (balanced_congr (setCore_rates i rfl)).2 (balanced_reply hs.rates i)
  · exact hs.totals
  · exact hs.serverUp

/-- A states request is harmless only when the rates it clears are zero. -/
theorem statesReq_iff
    (hs : Conserved s)
    (i : Fin cores) :
    Conserved (s.statesReq i) ↔ ∀ c, (s.core i).tciRateStats c = 0 := by
  rw [← balanced_discard_iff hs.rates i]
  constructor
  · intro h
    exact (balanced_congr (setCore_rates i rfl)).1 h.rates
  · intro hrates
    refine ⟨?_, ?_, hs.totals, hs.serverUp⟩
    · exact (balanced_congr (setCore_same_stats i (testCaseStatesStatsReqCb (s.core i)) rfl)).2
        hs.stats
    · exact (balanced_congr (setCore_rates i rfl)).2 hrates

end OneStep

/-! ## The polls of a server -/

section Polls

variable {cores apps : Nat} {s s' : System cores apps}

/-- The number of listeners of the core that has opened most. -/
def System.mostOpened (s : System cores apps) : Nat :=
  Finset.univ.sup fun i => s.happened i .up

/-- No core has been asked for its listeners. -/
structure Unasked (s : System cores apps) : Prop where
  total : s.total .up = 0
  reported : ∀ i, s.reported i .up = 0

/-- The first poll has asked the cores that are not left, and kept the largest reply. -/
structure FirstPoll (s : System cores apps) (left : List (Fin cores)) (srvUp : BitVec 32) :
    Prop where
  total : s.total .up = 0
  nodup : left.Nodup
  waiting : ∀ i ∈ left, s.reported i .up = 0
  asked : ∀ i, i ∉ left → s.reported i .up = s.happened i .up
  srvUp : srvUp.toNat = (Finset.univ.filter (· ∉ left)).sup fun i => s.happened i .up

/-- The first poll has ended; nothing is up that has not been reported. -/
structure Asked (s : System cores apps) : Prop where
  total : (s.total .up).toNat = s.mostOpened
  reported : ∀ i, s.reported i .up = s.happened i .up

/-- How far a server has come in reporting its listeners. -/
structure Progress (s : System cores apps) : Prop where
  opened : ∀ i, s.happened i .up = (s.opened i).card
  init : s.phase = .init → s.polled = false ∧ Unasked s
  idle : s.phase = .idle → if s.polled then Asked s else Unasked s
  polling : ∀ left srvUp, s.phase = .polling left srvUp →
    if s.polled then Asked s ∧ srvUp = 0 else FirstPoll s left srvUp

theorem Progress.mostOpened_eq_card_iff
    (hs : Progress s) :
    s.mostOpened = s.listeners.card ↔ OneOpenedAll s := by
  simp only [System.mostOpened, hs.opened]
  exact sup_card_eq_iff s.opened

/-- What the progress of a server depends on. -/
structure SamePolls (s s' : System cores apps) : Prop where
  phase : s'.phase = s.phase
  polled : s'.polled = s.polled
  tried : s'.tried = s.tried
  total : s'.total .up = s.total .up
  happened : ∀ i, s'.happened i .up = s.happened i .up
  reported : ∀ i, s'.reported i .up = s.reported i .up

theorem Progress.of_same
    (hs : Progress s)
    (hsame : SamePolls s s') :
    Progress s' := by
  have hunasked : Unasked s → Unasked s' := fun h =>
    ⟨hsame.total ▸ h.total, fun i => (hsame.reported i).trans (h.reported i)⟩
  have hmost : s'.mostOpened = s.mostOpened := by
    simp only [System.mostOpened, hsame.happened]
  have hasked : Asked s → Asked s' := by
    intro h
    refine ⟨by rw [hsame.total, hmost, h.total], fun i => ?_⟩
    rw [hsame.reported, hsame.happened, h.reported]
  constructor
  · intro i
    rw [hsame.happened, hs.opened, System.opened, System.opened, hsame.tried]
  · intro hphase
    obtain ⟨hpolled, hzero⟩ := hs.init (hsame.phase ▸ hphase)
    exact ⟨hsame.polled.trans hpolled, hunasked hzero⟩
  · intro hphase
    have h := hs.idle (hsame.phase ▸ hphase)
    rw [hsame.polled]
    split_ifs with hpolled
    · rw [if_pos hpolled] at h
      exact hasked h
    · rw [if_neg hpolled] at h
      exact hunasked h
  · intro left srvUp hphase
    have h := hs.polling left srvUp (hsame.phase ▸ hphase)
    rw [hsame.polled]
    split_ifs with hpolled
    · rw [if_pos hpolled] at h
      exact ⟨hasked h.1, h.2⟩
    · rw [if_neg hpolled] at h
      refine ⟨hsame.total ▸ h.total, h.nodup, fun i hi => ?_, fun i hi => ?_, ?_⟩
      · rw [hsame.reported, h.waiting i hi]
      · rw [hsame.reported, hsame.happened, h.asked i hi]
      · simp only [h.srvUp, hsame.happened]

/-- At the end of a poll the total of a server is the number of listeners of one core. -/
theorem total_up_endPoll
    (hs : Progress s)
    (hserver : s.isServer = true)
    {srvUp : BitVec 32}
    (hphase : s.phase = .polling [] srvUp) :
    ((s.endPoll srvUp).total .up).toNat = s.mostOpened := by
  have h := hs.polling _ _ hphase
  simp only [System.endPoll, hserver, if_true, Function.update_self]
  split_ifs at h with hpolled
  · obtain ⟨⟨htotal, -⟩, rfl⟩ := h
    simpa using htotal
  · rw [h.total, zero_add, h.srvUp, System.mostOpened]
    simp

theorem endPoll_iff
    (hconserved : Conserved s) (hs : s.isServer = true → Progress s)
    {srvUp : BitVec 32}
    (hphase : s.phase = .polling [] srvUp) :
    Conserved (s.endPoll srvUp) ↔ (s.isServer = true → OneOpenedAll s) := by
  constructor
  · intro h hserver
    rw [← (hs hserver).mostOpened_eq_card_iff, ← total_up_endPoll (hs hserver) hserver hphase]
    exact h.serverUp hserver rfl
  · intro hall
    refine ⟨hconserved.stats, hconserved.rates, fun c hc => ?_, fun hserver _ => ?_⟩
    · have htotal : (s.endPoll srvUp).total c = s.total c := by
        simp only [System.endPoll]
        split_ifs with hserver
        · exact Function.update_of_ne (fun h => hc ⟨hserver, h⟩) _ _
        · rfl
      rw [htotal]
      exact hconserved.totals c hc
    · rw [total_up_endPoll (hs hserver) hserver hphase]
      exact (hs hserver).mostOpened_eq_card_iff.2 (hall hserver)

end Polls

/-! ## Every run -/

section Runs

variable {cores apps : Nat}

/-- What holds as long as every step meets the condition. -/
structure Invariant (s : System cores apps) : Prop where
  conserved : Conserved s
  progress : s.isServer = true → Progress s

theorem step_iff
    (s : System cores apps) (input : Input cores apps)
    (hs : Invariant s) :
    Conserved (step s input) ↔ StepMeets s input := by
  have hconserved := hs.conserved
  cases input with
  | listen i opened =>
      simp only [step, StepMeets]
      by_cases hinit : s.isServer = true ∧ s.phase = .init
      · rw [if_pos hinit, listen_iff hconserved ((hs.progress hinit.1).init hinit.2).1]
        exact ⟨fun h _ => h, fun h => h hinit⟩
      · rw [if_neg hinit]
        exact iff_of_true hconserved fun h => absurd h hinit
  | start =>
      simp only [step, StepMeets, iff_true]
      split_ifs with hinit
      · exact ⟨hconserved.stats, hconserved.rates, hconserved.totals, hconserved.serverUp⟩
      · exact hconserved
  | counted i e =>
      simp only [step, StepMeets]
      split_ifs with hup
      · simp only [hconserved, hup, and_self, not_true_eq_false, false_imp_iff]
      · rw [counted_iff hconserved]
        simp only [hup, not_false_eq_true, true_imp_iff]
  | manager =>
      simp only [step, System.manager, StepMeets]
      match hphase : s.phase with
      | .init =>
          exact iff_of_true hconserved trivial
      | .idle =>
          exact iff_of_true
            ⟨hconserved.stats, hconserved.rates, hconserved.totals, hconserved.serverUp⟩ trivial
      | .polling (i :: left) srvUp =>
          exact statsReq_iff hconserved i left srvUp
      | .polling [] srvUp =>
          exact endPoll_iff hconserved hs.progress hphase
  | ratesReq i =>
      exact iff_of_true (ratesReq_conserved hconserved i) trivial
  | statesReq i =>
      exact statesReq_iff hconserved i

end Runs

/-- Two cores that have opened one listener each, but not the same one. -/
example :
    ((run step (cleared 2 1 true)
      [.listen 0 true, .listen 0 false, .listen 1 false, .listen 1 true, .start,
        .manager, .manager, .manager, .manager]).total .up).toNat = 1 := by
  decide

end StatsRequests
end Warp17
