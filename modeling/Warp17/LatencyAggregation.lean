import Mathlib.Tactic
import Warp17.GuardedRuns
import Warp17.TestCaseConfig

/-!
# The latency statistics of a test case

A packet core keeps the latencies of a test case in a `tpg_latency_stats_t`
(`test_update_latency` in src/src/tpg_tests.c).  A stats request hands the record to the test
manager and initialises it again, and `test_aggregate_latencies` of src/src/tpg_test_mgmt.c
adds it to the record of the manager.

A record is initialised with the largest possible minimum.  `test_case_init_cb` does that, but
clears the record afterwards, so that the minimum of the first interval on each core is 0.  The
statistics over the most recent samples, `gls_sample_stats`, are left out.

The samples themselves are kept beside the state of the source: `pending` are those of a core
since its last reply, and `polled` those that the replies have handed over.

**Results**
- `statsReq_summarizes_iff`: a reply leaves the manager right only if it has no sample.
- `latencies_ok`: so it is for every run.
- `latencies_apart`: which of the values are right all the same; the sum and the maximum are,
  the number of samples is doubled and the minimum is 0.
-/

namespace Warp17
namespace LatencyAggregation

open GuardedRuns TestCaseConfig

/-- `tpg_latency_stats_t`; the first four fields have 32 bits, the others 64. -/
structure LatencyStats where
  lsMaxExceeded : Nat
  lsMaxAverageExceeded : Nat
  lsMinLatency : Nat
  lsMaxLatency : Nat
  lsSumLatency : Nat
  lsSumJitter : Nat
  lsInstantJitter : Nat
  lsSamplesCount : Nat
deriving DecidableEq, Repr

/-- `bzero` of the record. -/
def LatencyStats.zero : LatencyStats :=
  ⟨0, 0, 0, 0, 0, 0, 0, 0⟩

/-- `tpg_gen_latency_stats_t` without the recent samples. -/
structure GenLatencyStats where
  glsStats : LatencyStats
  glsInvalidLat : Nat
deriving DecidableEq, Repr

/-- `test_case_latency_init`. -/
def testCaseLatencyInit : GenLatencyStats where
  glsStats := { LatencyStats.zero with lsMinLatency := 2 ^ 32 - 1 }
  glsInvalidLat := 0

/-- The average as `int64_t`. -/
def average (stats : LatencyStats) : Int :=
  if stats.lsSamplesCount > 0 then
    Int.bmod (stats.lsSumLatency / stats.lsSamplesCount : Nat) (2 ^ 64)
  else 0

/-- The comparison is on `(int) latency`, the difference is taken in `uint64_t`. -/
def instantJitter (avg : Int) (latency : Nat) : Nat :=
  if avg ≥ Int.bmod latency (2 ^ 32) then ((avg - latency) % 2 ^ 64).toNat
  else ((latency - avg) % 2 ^ 64).toNat

def updateJitter (stats : LatencyStats) (latency : Nat) : LatencyStats :=
  if stats.lsSamplesCount > 0 then
    let jitter := instantJitter (average stats) latency
    { stats with
      lsInstantJitter := jitter
      lsSumJitter := (stats.lsSumJitter + jitter) % 2 ^ 64 }
  else stats

def updateExceeded (stats : LatencyStats) (avg : Int) (latency : Nat)
    (tciLatency : TestCaseLatency) : LatencyStats :=
  { stats with
    lsMaxExceeded :=
      if tciLatency.tcsMax.has ∧ latency > tciLatency.tcsMax.val then
        (stats.lsMaxExceeded + 1) % 2 ^ 32
      else stats.lsMaxExceeded
    lsMaxAverageExceeded :=
      if tciLatency.tcsMaxAvg.has ∧ avg > tciLatency.tcsMaxAvg.val then
        (stats.lsMaxAverageExceeded + 1) % 2 ^ 32
      else stats.lsMaxAverageExceeded }

def testUpdateLatencyStats (stats : LatencyStats) (latency : Nat)
    (tciLatency : TestCaseLatency) : LatencyStats :=
  let stats' := updateExceeded (updateJitter stats latency) (average stats) latency tciLatency
  { stats' with
    lsSamplesCount := (stats.lsSamplesCount + 1) % 2 ^ 64
    lsSumLatency := (stats.lsSumLatency + latency) % 2 ^ 64
    lsMinLatency :=
      if latency < stats.lsMinLatency then latency % 2 ^ 32 else stats.lsMinLatency
    lsMaxLatency :=
      if latency > stats.lsMaxLatency then latency % 2 ^ 32 else stats.lsMaxLatency }

/-- The time stamps of a packet give no latency. -/
def invalidTstamps (sentTstamp rcvTstamp : Nat) : Bool :=
  rcvTstamp < sentTstamp || sentTstamp = 0 || rcvTstamp = 0

def testUpdateLatency (stats : GenLatencyStats) (tciLatency : TestCaseLatency)
    (sentTstamp rcvTstamp : Nat) : GenLatencyStats :=
  if invalidTstamps sentTstamp rcvTstamp then
    { stats with glsInvalidLat := (stats.glsInvalidLat + 1) % 2 ^ 32 }
  else
    { stats with
      glsStats := testUpdateLatencyStats stats.glsStats (rcvTstamp - sentTstamp) tciLatency }

/-- The number of samples is added twice. -/
def testAggregateLatencies (dest source : LatencyStats) : LatencyStats where
  lsMaxAverageExceeded := (dest.lsMaxAverageExceeded + source.lsMaxAverageExceeded) % 2 ^ 32
  lsMaxExceeded := (dest.lsMaxExceeded + source.lsMaxExceeded) % 2 ^ 32
  lsMaxLatency :=
    if dest.lsMaxLatency ≥ source.lsMaxLatency then dest.lsMaxLatency else source.lsMaxLatency
  lsMinLatency :=
    if dest.lsMinLatency ≤ source.lsMinLatency then dest.lsMinLatency else source.lsMinLatency
  lsSumLatency := (dest.lsSumLatency + source.lsSumLatency) % 2 ^ 64
  lsSumJitter := (dest.lsSumJitter + source.lsSumJitter) % 2 ^ 64
  lsInstantJitter :=
    if dest.lsInstantJitter ≥ source.lsInstantJitter then dest.lsInstantJitter
    else source.lsInstantJitter
  lsSamplesCount :=
    ((dest.lsSamplesCount + source.lsSamplesCount) % 2 ^ 64 + source.lsSamplesCount) % 2 ^ 64

/-! ## The cores and the manager -/

/--
`rxTstamp` is `tcim_rx_tstamp`: without it a stats request does not initialise the record of
the core.
-/
structure System (cores : Nat) where
  rxTstamp : Bool
  tciLatency : TestCaseLatency
  core : Fin cores → GenLatencyStats
  total : GenLatencyStats
  pending : Fin cores → Multiset Nat
  polled : Multiset Nat
  asked : Fin cores → Bool

/-- A packet with its time stamps, the begin of a poll, and the request to one core. -/
inductive Input (cores : Nat)
  | packet (i : Fin cores) (sentTstamp rcvTstamp : Nat)
  | beginPoll
  | statsReq (i : Fin cores)
deriving DecidableEq, Repr

section Steps

variable {cores : Nat}

def System.packet (s : System cores) (i : Fin cores) (sentTstamp rcvTstamp : Nat) :
    System cores :=
  { s with
    core :=
      Function.update s.core i
        (testUpdateLatency (s.core i) s.tciLatency sentTstamp rcvTstamp)
    pending :=
      if invalidTstamps sentTstamp rcvTstamp then s.pending
      else Function.update s.pending i ((rcvTstamp - sentTstamp) ::ₘ s.pending i) }

/-- The beginning of `test_update_status`. -/
def System.beginPoll (s : System cores) : System cores :=
  { s with
    total := { s.total with glsStats := { s.total.glsStats with lsInstantJitter := 0 } } }

/-- `test_update_status` adds the reply of `test_case_stats_req_cb`. -/
def System.statsReq (s : System cores) (i : Fin cores) : System cores :=
  { s with
    core :=
      if s.rxTstamp then Function.update s.core i testCaseLatencyInit else s.core
    total :=
      { glsInvalidLat := (s.total.glsInvalidLat + (s.core i).glsInvalidLat) % 2 ^ 32
        glsStats := testAggregateLatencies s.total.glsStats (s.core i).glsStats }
    pending := Function.update s.pending i 0
    polled := s.polled + s.pending i
    asked := Function.update s.asked i true }

def step (s : System cores) : Input cores → System cores
  | .packet i sentTstamp rcvTstamp => s.packet i sentTstamp rcvTstamp
  | .beginPoll => s.beginPoll
  | .statsReq i => s.statsReq i

/--
What `test_start_cb` and `test_case_init_cb` leave: the cores are cleared after the minimum has
been set.
-/
def started (cores : Nat) (rxTstamp : Bool) (tciLatency : TestCaseLatency) : System cores where
  rxTstamp := rxTstamp
  tciLatency := tciLatency
  core := fun _ => ⟨LatencyStats.zero, 0⟩
  total := testCaseLatencyInit
  pending := fun _ => 0
  polled := 0
  asked := fun _ => false

/-- The record holds the number, the sum, the minimum and the maximum of the samples. -/
structure Summarizes (stats : LatencyStats) (samples : Multiset Nat) : Prop where
  count : stats.lsSamplesCount = samples.card
  sum : stats.lsSumLatency = samples.sum
  min : samples ≠ 0 → IsLeast {x | x ∈ samples} stats.lsMinLatency
  max : samples ≠ 0 → IsGreatest {x | x ∈ samples} stats.lsMaxLatency

/-- What the manager holds is right. -/
def TotalOk (s : System cores) : Prop :=
  Summarizes s.total.glsStats s.polled

/-- The condition on a step: a core that is asked has no sample to report. -/
def StepMeets (s : System cores) : Input cores → Prop
  | .statsReq i => s.pending i = 0
  | _ => True

end Steps

/-! ## The number and the sum of the samples -/

section Values

variable (stats : LatencyStats) (latency : Nat) (tciLatency : TestCaseLatency)

@[simp] theorem testUpdateLatencyStats_count :
    (testUpdateLatencyStats stats latency tciLatency).lsSamplesCount =
      (stats.lsSamplesCount + 1) % 2 ^ 64 := by
  rfl

@[simp] theorem testUpdateLatencyStats_sum :
    (testUpdateLatencyStats stats latency tciLatency).lsSumLatency =
      (stats.lsSumLatency + latency) % 2 ^ 64 := by
  rfl

end Values

/-- The number and the sum of the samples, as far as 64 bits keep them. -/
structure Counts (stats : LatencyStats) (samples : Multiset Nat) : Prop where
  count : stats.lsSamplesCount = samples.card % 2 ^ 64
  sum : stats.lsSumLatency = samples.sum % 2 ^ 64

theorem Counts.sample
    {stats : LatencyStats} {samples : Multiset Nat}
    (hcounts : Counts stats samples)
    (latency : Nat) (tciLatency : TestCaseLatency) :
    Counts (testUpdateLatencyStats stats latency tciLatency) (latency ::ₘ samples) := by
  constructor
  · rw [testUpdateLatencyStats_count, hcounts.count, Multiset.card_cons, Nat.mod_add_mod]
  · rw [testUpdateLatencyStats_sum, hcounts.sum, Multiset.sum_cons, Nat.mod_add_mod,
      Nat.add_comm]

theorem counts_init :
    Counts testCaseLatencyInit.glsStats 0 :=
  ⟨rfl, rfl⟩

theorem counts_zero :
    Counts LatencyStats.zero 0 :=
  ⟨rfl, rfl⟩

section Steps

variable {cores : Nat} {s : System cores}

/-- A packet adds its latency to the record of its core, and leaves the others. -/
theorem counts_packet
    (hcounts : ∀ i, Counts (s.core i).glsStats (s.pending i))
    (i : Fin cores) (sentTstamp rcvTstamp : Nat) :
    ∀ j, Counts ((s.packet i sentTstamp rcvTstamp).core j).glsStats
      ((s.packet i sentTstamp rcvTstamp).pending j) := by
  intro j
  by_cases hj : j = i
  · subst hj
    cases hinvalid : invalidTstamps sentTstamp rcvTstamp with
    | true =>
        simpa [System.packet, testUpdateLatency, hinvalid] using hcounts j
    | false =>
        simpa [System.packet, testUpdateLatency, hinvalid] using
          (hcounts j).sample (rcvTstamp - sentTstamp) s.tciLatency
  · cases hinvalid : invalidTstamps sentTstamp rcvTstamp with
    | true =>
        simpa [System.packet, hj, hinvalid] using hcounts j
    | false =>
        simpa [System.packet, hj, hinvalid] using hcounts j

/-! ## When the manager is right -/

/-- As long as every step meets the condition, the manager has not been told of a sample. -/
structure Untold (s : System cores) : Prop where
  polled : s.polled = 0
  total : s.total.glsStats.lsSamplesCount = 0 ∧ s.total.glsStats.lsSumLatency = 0
  core : ∀ i, Counts (s.core i).glsStats (s.pending i)

theorem Untold.totalOk
    (hs : Untold s) :
    TotalOk s := by
  have hpolled := hs.polled
  refine ⟨?_, ?_, fun hne => absurd hpolled hne, fun hne => absurd hpolled hne⟩
  · rw [hs.total.1, hpolled, Multiset.card_zero]
  · rw [hs.total.2, hpolled, Multiset.sum_zero]

/-- A number of 64 bits is its own double only if it is 0. -/
theorem eq_zero_of_double
    {n : Nat}
    (hdouble : ((n % 2 ^ 64) % 2 ^ 64 + n % 2 ^ 64) % 2 ^ 64 = n) :
    n = 0 := by
  omega

/-- After a reply the manager is right only if the core had no sample. -/
theorem statsReq_summarizes_iff
    (hs : Untold s)
    (i : Fin cores) :
    TotalOk (s.statsReq i) ↔ s.pending i = 0 := by
  have hcore := hs.core i
  constructor
  · intro hok
    have hcount : (testAggregateLatencies s.total.glsStats (s.core i).glsStats).lsSamplesCount =
        (s.polled + s.pending i).card := hok.count
    rw [hs.polled, zero_add, testAggregateLatencies, hs.total.1, hcore.count, Nat.zero_add]
      at hcount
    exact Multiset.card_eq_zero.1 (eq_zero_of_double hcount)
  · intro hnone
    have hpolled : (s.statsReq i).polled = 0 := by
      simp only [System.statsReq, hs.polled, hnone, add_zero]
    refine ⟨?_, ?_, fun hne => absurd hpolled hne, fun hne => absurd hpolled hne⟩
    · rw [hpolled]
      simp [System.statsReq, testAggregateLatencies, hs.total.1, hcore.count, hnone]
    · rw [hpolled]
      simp [System.statsReq, testAggregateLatencies, hs.total.2, hcore.sum, hnone]

theorem untold_statsReq
    (hs : Untold s)
    (i : Fin cores)
    (hok : TotalOk (s.statsReq i)) :
    Untold (s.statsReq i) := by
  have hnone := (statsReq_summarizes_iff hs i).1 hok
  have hpolled : (s.statsReq i).polled = 0 := by
    simp only [System.statsReq, hs.polled, hnone, add_zero]
  refine ⟨hpolled, ⟨?_, ?_⟩, fun j => ?_⟩
  · rw [hok.count, hpolled, Multiset.card_zero]
  · rw [hok.sum, hpolled, Multiset.sum_zero]
  · have hpending : (s.statsReq i).pending = s.pending := by
      simp only [System.statsReq]
      rw [← hnone, Function.update_eq_self]
    rw [hpending]
    simp only [System.statsReq]
    split_ifs with hrx
    · by_cases hj : j = i
      · subst hj
        rw [Function.update_self, hnone]
        exact counts_init
      · rw [Function.update_of_ne hj]
        exact hs.core j
    · exact hs.core j

theorem untold_started
    (rxTstamp : Bool) (tciLatency : TestCaseLatency) :
    Untold (started cores rxTstamp tciLatency) :=
  ⟨rfl, ⟨rfl, rfl⟩, fun _ => counts_zero⟩

theorem step_iff
    (s : System cores) (input : Input cores)
    (hs : Untold s) :
    TotalOk (step s input) ↔ StepMeets s input := by
  cases input with
  | packet i sentTstamp rcvTstamp =>
      exact iff_of_true hs.totalOk trivial
  | beginPoll =>
      have hok := hs.totalOk
      exact iff_of_true ⟨hok.count, hok.sum, hok.min, hok.max⟩ trivial
  | statsReq i =>
      exact statsReq_summarizes_iff hs i

theorem step_untold
    (s : System cores) (input : Input cores)
    (hs : Untold s)
    (hok : TotalOk (step s input)) :
    Untold (step s input) := by
  cases input with
  | packet i sentTstamp rcvTstamp =>
      exact ⟨hs.polled, hs.total, counts_packet hs.core i sentTstamp rcvTstamp⟩
  | beginPoll =>
      exact ⟨hs.polled, hs.total, hs.core⟩
  | statsReq i =>
      exact untold_statsReq hs i hok

end Steps

/--
For every number of cores and every order of packets and requests: what the manager holds is
right after every step exactly when no core that is asked has a sample to report.
-/
theorem latencies_ok
    (cores : Nat) (rxTstamp : Bool) (tciLatency : TestCaseLatency) (inputs : List (Input cores)) :
    Guarded step (fun s input => TotalOk (step s input)) (started cores rxTstamp tciLatency)
        inputs ↔
      Guarded step StepMeets (started cores rxTstamp tciLatency) inputs :=
  guarded_congr Untold step_iff step_untold (untold_started rxTstamp tciLatency)

/-! ## The values apart -/

/-- The maximum of the samples, if each of them fits into 32 bits. -/
def MaxOf (stats : LatencyStats) (samples : Multiset Nat) : Prop :=
  (∀ x ∈ samples, x < 2 ^ 32) → stats.lsMaxLatency = samples.sup

theorem MaxOf.sample
    {stats : LatencyStats} {samples : Multiset Nat}
    (hmax : MaxOf stats samples)
    (latency : Nat) (tciLatency : TestCaseLatency) :
    MaxOf (testUpdateLatencyStats stats latency tciLatency) (latency ::ₘ samples) := by
  intro hsmall
  have hlatency : latency < 2 ^ 32 := hsmall latency (Multiset.mem_cons_self latency samples)
  have hrest := hmax fun x hx => hsmall x (Multiset.mem_cons_of_mem hx)
  rw [Multiset.sup_cons, ← hrest]
  change (if latency > stats.lsMaxLatency then latency % 2 ^ 32 else stats.lsMaxLatency) = _
  split_ifs with hlarger
  · rw [Nat.mod_eq_of_lt hlatency]
    exact (max_eq_left hlarger.le).symm
  · exact (max_eq_right (Nat.le_of_not_lt hlarger)).symm

theorem MaxOf.aggregate
    {dest source : LatencyStats} {samples samples' : Multiset Nat}
    (hdest : MaxOf dest samples) (hsource : MaxOf source samples') :
    MaxOf (testAggregateLatencies dest source) (samples + samples') := by
  intro hsmall
  have hleft := hdest fun x hx => hsmall x (Multiset.mem_add.2 (Or.inl hx))
  have hright := hsource fun x hx => hsmall x (Multiset.mem_add.2 (Or.inr hx))
  rw [Multiset.sup_add, ← hleft, ← hright]
  change (if dest.lsMaxLatency ≥ source.lsMaxLatency then dest.lsMaxLatency
    else source.lsMaxLatency) = _
  split_ifs with hle
  · exact (max_eq_left hle).symm
  · exact (max_eq_right (Nat.le_of_not_le hle)).symm

theorem testUpdateLatencyStats_min_zero
    {stats : LatencyStats}
    (hmin : stats.lsMinLatency = 0)
    (latency : Nat) (tciLatency : TestCaseLatency) :
    (testUpdateLatencyStats stats latency tciLatency).lsMinLatency = 0 := by
  change (if latency < stats.lsMinLatency then latency % 2 ^ 32 else stats.lsMinLatency) = 0
  rw [hmin, if_neg (Nat.not_lt_zero latency)]

/-- The doubled number of samples, the sum, and the maximum. -/
structure Doubled (stats : LatencyStats) (samples : Multiset Nat) : Prop where
  count : stats.lsSamplesCount = 2 * samples.card % 2 ^ 64
  sum : stats.lsSumLatency = samples.sum % 2 ^ 64
  max : MaxOf stats samples

theorem Doubled.aggregate
    {dest source : LatencyStats} {samples samples' : Multiset Nat}
    (hdest : Doubled dest samples)
    (hsource : Counts source samples') (hmax : MaxOf source samples') :
    Doubled (testAggregateLatencies dest source) (samples + samples') := by
  refine ⟨?_, ?_, hdest.max.aggregate hmax⟩
  · rw [testAggregateLatencies, hdest.count, hsource.count, Multiset.card_add]
    simp only [Nat.mod_add_mod, Nat.add_mod_mod]
    congr 1
    omega
  · rw [testAggregateLatencies, hdest.sum, hsource.sum, Multiset.sum_add, Nat.mod_add_mod,
      Nat.add_mod_mod]

section Runs

variable {cores : Nat}

/-- What holds in every run of a test case with receive time stamps. -/
structure Apart (s : System cores) : Prop where
  rxTstamp : s.rxTstamp = true
  core : ∀ i, Counts (s.core i).glsStats (s.pending i)
  coreMax : ∀ i, MaxOf (s.core i).glsStats (s.pending i)
  coreMin : ∀ i, s.asked i = false → (s.core i).glsStats.lsMinLatency = 0
  total : Doubled s.total.glsStats s.polled
  totalMin : ∀ i, s.asked i = true → s.total.glsStats.lsMinLatency = 0

theorem apart_packet
    {s : System cores}
    (hs : Apart s)
    (i : Fin cores) (sentTstamp rcvTstamp : Nat) :
    Apart (s.packet i sentTstamp rcvTstamp) := by
  refine ⟨hs.rxTstamp, counts_packet hs.core i sentTstamp rcvTstamp, fun j => ?_, fun j hj => ?_,
    hs.total, hs.totalMin⟩
  · by_cases hji : j = i
    · subst hji
      cases hinvalid : invalidTstamps sentTstamp rcvTstamp with
      | true =>
          simpa [System.packet, testUpdateLatency, hinvalid] using hs.coreMax j
      | false =>
          simpa [System.packet, testUpdateLatency, hinvalid] using
            (hs.coreMax j).sample (rcvTstamp - sentTstamp) s.tciLatency
    · cases hinvalid : invalidTstamps sentTstamp rcvTstamp with
      | true =>
          simpa [System.packet, hji, hinvalid] using hs.coreMax j
      | false =>
          simpa [System.packet, hji, hinvalid] using hs.coreMax j
  · have hmin := hs.coreMin j hj
    by_cases hji : j = i
    · subst hji
      cases hinvalid : invalidTstamps sentTstamp rcvTstamp with
      | true =>
          simpa [System.packet, testUpdateLatency, hinvalid] using hmin
      | false =>
          simpa [System.packet, testUpdateLatency, hinvalid] using
            testUpdateLatencyStats_min_zero hmin (rcvTstamp - sentTstamp) s.tciLatency
    · simpa [System.packet, hji] using hmin

theorem apart_statsReq
    {s : System cores}
    (hs : Apart s)
    (i : Fin cores) :
    Apart (s.statsReq i) := by
  have hcleared : (s.statsReq i).core = Function.update s.core i testCaseLatencyInit := by
    rw [System.statsReq, if_pos hs.rxTstamp]
  refine ⟨hs.rxTstamp, fun j => ?_, fun j => ?_, fun j hj => ?_,
    hs.total.aggregate (hs.core i) (hs.coreMax i), fun j _ => ?_⟩
  · rw [hcleared]
    by_cases hji : j = i
    · subst hji
      simpa [System.statsReq] using counts_init
    · simpa [System.statsReq, hji] using hs.core j
  · rw [hcleared]
    by_cases hji : j = i
    · subst hji
      intro _
      simp [System.statsReq, testCaseLatencyInit, LatencyStats.zero]
    · simpa [System.statsReq, hji] using hs.coreMax j
  · have hji : j ≠ i := by
      rintro rfl
      simp [System.statsReq] at hj
    rw [hcleared, Function.update_of_ne hji]
    refine hs.coreMin j ?_
    simpa [System.statsReq, hji] using hj
  · -- the first reply of the core `i` has the minimum 0, and so has the total ever after
    change (if s.total.glsStats.lsMinLatency ≤ (s.core i).glsStats.lsMinLatency then
      s.total.glsStats.lsMinLatency else (s.core i).glsStats.lsMinLatency) = 0
    cases hasked : s.asked i with
    | true =>
        rw [hs.totalMin i hasked, if_pos (Nat.zero_le _)]
    | false =>
        rw [hs.coreMin i hasked]
        split_ifs with hle
        · exact Nat.le_zero.1 hle
        · rfl

theorem apart_step
    (s : System cores) (input : Input cores)
    (hs : Apart s) :
    Apart (step s input) := by
  cases input with
  | packet i sentTstamp rcvTstamp =>
      exact apart_packet hs i sentTstamp rcvTstamp
  | beginPoll =>
      exact ⟨hs.rxTstamp, hs.core, hs.coreMax, hs.coreMin,
        ⟨hs.total.count, hs.total.sum, hs.total.max⟩, hs.totalMin⟩
  | statsReq i =>
      exact apart_statsReq hs i

theorem apart_started
    (tciLatency : TestCaseLatency) :
    Apart (started cores true tciLatency) :=
  ⟨rfl, fun _ => counts_zero, fun _ _ => rfl, fun _ _ => rfl, ⟨rfl, rfl, fun _ => rfl⟩, nofun⟩

end Runs

/--
For every run: the sum is right up to 64 bits, and so is the maximum of samples of 32 bits; the
number of samples is doubled, and the minimum is 0 once a core has been asked.
-/
theorem latencies_apart
    (cores : Nat) (tciLatency : TestCaseLatency) (inputs : List (Input cores)) :
    let s := run step (started cores true tciLatency) inputs
    Doubled s.total.glsStats s.polled ∧
      ((∃ i, s.asked i = true) → s.total.glsStats.lsMinLatency = 0) := by
  have h := run_invariant_always Apart apart_step inputs (apart_started tciLatency)
  exact ⟨h.total, fun ⟨i, hi⟩ => h.totalMin i hi⟩

/-- One packet that took five microseconds: two samples are counted, with the minimum 0. -/
theorem oneSample_countedTwice :
    ¬Guarded step (fun s input => TotalOk (step s input))
      (started 1 true ⟨⟨false, 0⟩, ⟨false, 0⟩, ⟨false, 0⟩⟩)
      [.packet 0 10 15, .beginPoll, .statsReq 0] := by
  rintro ⟨-, -, hok, -⟩
  have hcount := hok.count
  exact absurd hcount (by decide)

end LatencyAggregation
end Warp17
