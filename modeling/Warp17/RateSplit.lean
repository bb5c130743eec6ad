import Warp17.ClientSessions
import Warp17.RateLimits

/-!
# The rate of a test case over the cores

`test_init_test_case` sends one initialization message after the other to the packet cores of a
port.  Each core counts its sessions, scales the target rate by its part of all sessions, and
takes its slots out of the configuration that the messages share.

**Results**
- `rate_split`: the split of a limited rate ends on every core, moves slots without loss and
  gives every core its share; the shares miss the target by what the divisions cut off.
-/

namespace Warp17
namespace RateSplit

open RateLimits ClientSessions

/-- `GCFG_TCP_CLIENT_BURST_MAX`, `GCFG_UDP_CLIENT_BURST_MAX` -/
def clientBurstMax : L4Proto → Nat
  | .tcp => 1
  | .udp => 16
  | .l4ProtoMax => 0

/-- The share of a core in `test_case_rate_init`, in 64-bit and then 32-bit arithmetic. -/
def scaledRate (targetRate totalSessions localSessions : Nat) : Nat :=
  if targetRate ≠ rateLimInfiniteVal ∧ totalSessions ≠ 0 then
    localSessions * targetRate % 2 ^ 64 / totalSessions % 2 ^ 32
  else targetRate

def testCaseRateInit (fuel : Nat) (memory : Bool) (rateCfg : RateLimitCfg)
    (coreCount maxBurst totalSessions localSessions : Nat) : Option RateInit :=
  rateLimitInit fuel memory rateCfg coreCount
    (scaledRate rateCfg.rlcTarget totalSessions localSessions) maxBurst

/-- `test_case_init_state` for a client and one of its rates, on the core of a queue. -/
def testCaseInitState (connHash : ConnectionHash) (port : PortInfo) (fuel : Nat) (memory : Bool)
    (cfg : TpgClient) (rxQueueId : Nat) (rateCfg : RateLimitCfg) : Option RateInit := do
  let visits ← testCaseForEachClient connHash port fuel cfg rxQueueId
  let localSessions := visits.length % 2 ^ 32
  let totalSessions := (testCaseClientCfgCount cfg).toNat
  testCaseRateInit fuel memory rateCfg port.qCnt (clientBurstMax cfg.l4cProto) totalSessions
    localSessions

/-- What one core has initialized. -/
structure CoreRate where
  rxQueueId : Nat
  own : RateLimit
  left : RateLimitCfg
deriving DecidableEq, Repr

/-- The initialization messages of `test_init_test_case`, one core after the other. -/
def initCores (connHash : ConnectionHash) (port : PortInfo) (fuel : Nat) (memory : Nat → Bool)
    (cfg : TpgClient) : List Nat → RateLimitCfg → Option (List CoreRate)
  | [], _ => some []
  | q :: queues, rateCfg => do
      let init ← testCaseInitState connHash port fuel (memory q) cfg q rateCfg
      let rest ← initCores connHash port fuel memory cfg queues init.cfg
      some (⟨q, init.rl, init.cfg⟩ :: rest)

def testInitTestCase (connHash : ConnectionHash) (port : PortInfo) (fuel : Nat)
    (memory : Nat → Bool) (cfg : TpgClient) (rate : TpgRate) (queues : List Nat) :
    Option (RateLimitCfg × List CoreRate) := do
  let rateCfg ← rateLimitCfgInit fuel rate
  let cores ← initCores connHash port fuel memory cfg queues rateCfg
  some (rateCfg, cores)

/-! ## Shares -/

section Shares

/-- The sessions of the core with a queue. -/
def localSessions (connHash : ConnectionHash) (port : PortInfo) (cfg : TpgClient) (q : Nat) : Nat :=
  ((allSessions cfg).filter (rxQueue connHash port · = q)).length

/-- The part of a rate that a core with some of the sessions gets. -/
def share (targetRate totalSessions localSessions : Nat) : Nat :=
  localSessions * targetRate / totalSessions

/-- Floors add up to the whole less the remainders. -/
theorem sum_share
    {target total : Nat} (parts : List Nat) :
    (parts.map (share target total)).sum * total +
      (parts.map fun n => n * target % total).sum = parts.sum * target := by
  induction parts with
  | nil =>
      simp
  | cons n parts ih =>
      have hdiv := Nat.div_add_mod' (n * target) total
      rw [List.map_cons, List.map_cons, List.sum_cons, List.sum_cons, List.sum_cons, share,
        Nat.add_mul, Nat.add_mul]
      omega

/-- A core without sessions cuts nothing off; the others less than one each. -/
theorem sum_remainders_lt
    {target total : Nat} (htotal : 0 < total) (parts : List Nat)
    (hsome : ∃ n ∈ parts, n ≠ 0) :
    (parts.map fun n => n * target % total).sum < (parts.filter (· ≠ 0)).length * total := by
  have hle : ∀ parts : List Nat, (parts.map fun n => n * target % total).sum +
      (parts.filter (· ≠ 0)).length ≤ (parts.filter (· ≠ 0)).length * total := by
    intro parts
    induction parts with
    | nil =>
        simp
    | cons n parts ih =>
        have hlt := Nat.mod_lt (n * target) htotal
        by_cases hn : n = 0
        · rw [List.filter_cons_of_neg (by simpa using hn), List.map_cons, List.sum_cons, hn,
            Nat.zero_mul, Nat.zero_mod, Nat.zero_add]
          exact ih
        · rw [List.filter_cons_of_pos (by simpa using hn), List.map_cons, List.sum_cons,
            List.length_cons, Nat.add_mul, Nat.one_mul]
          omega
  obtain ⟨n, hn, hne⟩ := hsome
  have hpos : 0 < (parts.filter (· ≠ 0)).length :=
    List.length_pos_of_mem (List.mem_filter.2 ⟨hn, by simpa using hne⟩)
  have := hle parts
  omega

end Shares

/-! ## One core -/

section Core

variable {connHash : ConnectionHash} {port : PortInfo} {cfg : TpgClient} {fuel q : Nat}

theorem sessionCount_pos
    (h : RangesOk cfg) :
    0 < sessionCount cfg := by
  have hsrc := h.srcIps
  have hdst := h.dstIps
  have hsports := h.sports
  have hdports := h.dports
  simp only [sessionCount, ipValues, portValues, WordLoops.length_wordsUpTo]
  refine Nat.mul_pos (Nat.mul_pos (Nat.mul_pos ?_ ?_) ?_) ?_ <;> omega

theorem localSessions_le :
    localSessions connHash port cfg q ≤ sessionCount cfg :=
  (List.length_filter_le _ _).trans length_allSessions.le

/-- The configurations that the walks and the count are right for. -/
structure Countable (cfg : TpgClient) : Prop where
  ranges : RangesOk cfg
  sports : cfg.tucSports.l4prEnd.toNat < 65535
  dports : cfg.tucDports.l4prEnd.toNat < 65535
  few : sessionCount cfg < 2 ^ 32

/-- What a core is initialized with. -/
theorem testCaseInitState_eq
    (h : Countable cfg)
    (hfuel : 2 ^ 32 ≤ fuel)
    (memory : Bool) (rateCfg : RateLimitCfg) :
    testCaseInitState connHash port fuel memory cfg q rateCfg =
      rateLimitInit fuel memory rateCfg port.qCnt
        (scaledRate rateCfg.rlcTarget (sessionCount cfg) (localSessions connHash port cfg q))
        (clientBurstMax cfg.l4cProto) := by
  have hlocal := (@localSessions_le connHash port cfg q).trans_lt h.few
  have htotal : (testCaseClientCfgCount cfg).toNat = sessionCount cfg := by
    rw [testCaseClientCfgCount_eq h.ranges, BitVec.toNat_ofNat, Nat.mod_eq_of_lt h.few]
  rw [testCaseInitState, testCaseForEachClient_ends h.ranges h.sports h.dports hfuel,
    Option.bind_eq_bind, Option.bind_some, htotal, testCaseRateInit]
  rw [localSessions] at hlocal
  rw [Nat.mod_eq_of_lt hlocal]
  rfl

/-- A limited rate is scaled without overflow. -/
theorem scaledRate_eq
    {target total n : Nat}
    (htarget : target < rateLimInfiniteVal)
    (htotal : 0 < total) (hfew : total < 2 ^ 32)
    (hn : n ≤ total) :
    scaledRate target total n = share target total n ∧ share target total n ≤ target := by
  have hle : share target total n ≤ target := by
    rw [share, Nat.mul_comm]
    exact Nat.div_le_of_le_mul (by rw [Nat.mul_comm total]; exact Nat.mul_le_mul_left _ hn)
  have hmax : rateLimInfiniteVal < 2 ^ 32 := by decide
  refine ⟨?_, hle⟩
  have hproduct : n * target < 2 ^ 64 := by
    calc n * target ≤ n * 2 ^ 32 := Nat.mul_le_mul_left _ (by omega)
      _ < 2 ^ 32 * 2 ^ 32 := by omega
      _ = 2 ^ 64 := rfl
  rw [scaledRate, if_pos ⟨by omega, by omega⟩, Nat.mod_eq_of_lt hproduct, ← share,
    Nat.mod_eq_of_lt (by omega)]

end Core

/-! ## All cores -/

/-- Every core moves slots from what the cores before it left: none appears or disappears. -/
def SlotsMoved : List Nat → List CoreRate → Prop
  | _, [] => True
  | before, c :: cores =>
      (∀ i, c.own.rlSlots.getD i 0 + c.left.rlcSlots.getD i 0 = before.getD i 0) ∧
        SlotsMoved c.left.rlcSlots cores

/-- The rate that the cores have together. -/
def splitRate (cores : List CoreRate) : Nat :=
  (cores.map (·.own.rlSlots.sum)).sum

/-- What the cores make of a limited rate. -/
structure LimitedSplit (connHash : ConnectionHash) (port : PortInfo) (cfg : TpgClient)
    (rateCfg : RateLimitCfg) (cores : List CoreRate) : Prop where
  moved : SlotsMoved rateCfg.rlcSlots cores
  shares : ∀ c ∈ cores, c.own.rlSlots.sum =
    share rateCfg.rlcTarget (sessionCount cfg) (localSessions connHash port cfg c.rxQueueId)
  atMost : splitRate cores ≤ rateCfg.rlcTarget
  missing : rateCfg.rlcTarget < splitRate cores +
    (cores.filter fun c => localSessions connHash port cfg c.rxQueueId ≠ 0).length
  exact_iff : splitRate cores = rateCfg.rlcTarget ↔ ∀ c ∈ cores,
    sessionCount cfg ∣ localSessions connHash port cfg c.rxQueueId * rateCfg.rlcTarget

/-- Without a limit every core is unlimited and the configuration stays as it is. -/
def UnlimitedSplit (rateCfg : RateLimitCfg) (cores : List CoreRate) : Prop :=
  ∀ c ∈ cores, c.left = rateCfg ∧ c.own.rlCount = 1 ∧ c.own.rlCurrentRate = rateLimInfiniteVal

section Cores

variable {connHash : ConnectionHash} {port : PortInfo} {cfg : TpgClient} {fuel : Nat}
  {memory : Nat → Bool}

/-- Induction on the cores: the pool holds the shares of those to come. -/
theorem initCores_limited
    (h : Countable cfg)
    (hfuel : 2 ^ 32 ≤ fuel)
    (hmemory : ∀ q, memory q = true)
    (queues : List Nat) {rateCfg : RateLimitCfg}
    (htarget : rateCfg.rlcTarget < rateLimInfiniteVal)
    (hcount : rateCfg.rlcCount ≤ rateMaxSlotCount)
    (henough : (queues.map fun q => share rateCfg.rlcTarget (sessionCount cfg)
      (localSessions connHash port cfg q)).sum ≤ rateCfg.rlcSlots.sum) :
    ∃ cores, initCores connHash port fuel memory cfg queues rateCfg = some cores ∧
      cores.map (·.rxQueueId) = queues ∧ SlotsMoved rateCfg.rlcSlots cores ∧
        ∀ c ∈ cores, c.own.rlSlots.sum =
          share rateCfg.rlcTarget (sessionCount cfg)
            (localSessions connHash port cfg c.rxQueueId) := by
  induction queues generalizing rateCfg with
  | nil =>
      exact ⟨[], rfl, rfl, trivial, by simp⟩
  | cons q queues ih =>
      obtain ⟨hscaled, hle⟩ := scaledRate_eq htarget (sessionCount_pos h.ranges) h.few
        (@localSessions_le connHash port cfg q)
      rw [List.map_cons, List.sum_cons] at henough
      rw [rateMaxSlotCount] at hcount
      obtain ⟨rl, slots, hinit, hsum, hlen, hleft, hmatch⟩ :=
        @rateLimitInit_total fuel port.qCnt
          (share rateCfg.rlcTarget (sessionCount cfg) (localSessions connHash port cfg q))
          (clientBurstMax cfg.l4cProto) rateCfg port.qCnt_pos (by omega) (by omega) (by omega)
          (by rw [rateLimInfiniteVal] at htarget; omega)
      obtain ⟨cores, hcores, hqueues, hmoved, hshares⟩ :=
        @ih { rateCfg with rlcSlots := slots } htarget
          (by rw [RateLimitCfg.rlcCount, hlen]; exact hcount) (by dsimp only; omega)
      refine ⟨⟨q, rl, { rateCfg with rlcSlots := slots }⟩ :: cores, ?_, ?_, ⟨hmatch, hmoved⟩, ?_⟩
      · rw [initCores, testCaseInitState_eq h hfuel, hmemory, hscaled, hinit, Option.bind_eq_bind,
          Option.bind_some, hcores]
        rfl
      · rw [List.map_cons, hqueues]
      · intro c hc
        rcases List.mem_cons.1 hc with rfl | hc
        · exact hsum
        · exact hshares c hc

theorem initCores_unlimited
    (h : Countable cfg)
    (hfuel : 2 ^ 32 ≤ fuel)
    (hmemory : ∀ q, memory q = true)
    (queues : List Nat) {rateCfg : RateLimitCfg}
    (htarget : rateCfg.rlcTarget = rateLimInfiniteVal) :
    ∃ cores, initCores connHash port fuel memory cfg queues rateCfg = some cores ∧
      cores.map (·.rxQueueId) = queues ∧ UnlimitedSplit rateCfg cores := by
  induction queues with
  | nil =>
      exact ⟨[], rfl, rfl, by simp [UnlimitedSplit]⟩
  | cons q queues ih =>
      obtain ⟨cores, hcores, hqueues, hall⟩ := ih
      have hscaled : scaledRate rateCfg.rlcTarget (sessionCount cfg)
          (localSessions connHash port cfg q) = rateLimInfiniteVal := by
        rw [scaledRate, if_neg fun hlimited => hlimited.1 htarget, htarget]
      refine ⟨⟨q, unlimitedRate rateCfg.rlcCount (clientBurstMax cfg.l4cProto), rateCfg⟩ :: cores,
        ?_, ?_, ?_⟩
      · rw [initCores, testCaseInitState_eq h hfuel, hmemory, hscaled, rateLimitInit_unlimited,
          Option.bind_eq_bind, Option.bind_some, hcores]
        rfl
      · rw [List.map_cons, hqueues]
      · intro c hc
        rcases List.mem_cons.1 hc with rfl | hc
        · exact ⟨rfl, rfl, rfl⟩
        · exact hall c hc

/-- The cores of a port have all sessions. -/
theorem sum_localSessions
    {queues : List Nat}
    (hqueues : queues.Perm (List.range port.qCnt)) :
    (queues.map (localSessions connHash port cfg)).sum = sessionCount cfg := by
  have hparts := sum_length_filter (n := port.qCnt) (rxQueue connHash port) (allSessions cfg)
    fun s _ => Nat.mod_lt _ port.qCnt_pos
  rw [length_allSessions] at hparts
  rw [(hqueues.map _).sum_eq, ← hparts]
  rfl

/-- The shares of all cores, with what the divisions cut off. -/
theorem limitedSplit_of_shares
    {queues : List Nat} {rateCfg : RateLimitCfg} {cores : List CoreRate}
    (h : Countable cfg)
    (hqueues : queues.Perm (List.range port.qCnt))
    (hids : cores.map (·.rxQueueId) = queues)
    (hmoved : SlotsMoved rateCfg.rlcSlots cores)
    (hshares : ∀ c ∈ cores, c.own.rlSlots.sum =
      share rateCfg.rlcTarget (sessionCount cfg)
        (localSessions connHash port cfg c.rxQueueId)) :
    LimitedSplit connHash port cfg rateCfg cores := by
  have hpos := sessionCount_pos h.ranges
  have hparts : (cores.map fun c => localSessions connHash port cfg c.rxQueueId).sum =
      sessionCount cfg := by
    rw [← @sum_localSessions connHash port cfg queues hqueues, ← hids, List.map_map]
    rfl
  have hsplit := @sum_share rateCfg.rlcTarget (sessionCount cfg)
    (cores.map fun c => localSessions connHash port cfg c.rxQueueId)
  have hrate : splitRate cores = ((cores.map fun c => localSessions connHash port cfg
      c.rxQueueId).map (share rateCfg.rlcTarget (sessionCount cfg))).sum := by
    rw [splitRate, List.map_congr_left hshares, List.map_map]
    rfl
  have hsome : ∃ n ∈ cores.map fun c => localSessions connHash port cfg c.rxQueueId, n ≠ 0 := by
    obtain ⟨n, hn, hnpos⟩ := WhileLoops.exists_pos_of_sum_pos (hparts ▸ hpos)
    exact ⟨n, hn, by omega⟩
  have hcut := @sum_remainders_lt rateCfg.rlcTarget (sessionCount cfg) hpos _ hsome
  rw [← hrate, hparts, Nat.mul_comm (sessionCount cfg)] at hsplit
  rw [List.filter_map, List.length_map] at hcut
  refine ⟨hmoved, hshares, ?_, ?_, ?_⟩
  · exact Nat.le_of_mul_le_mul_right (by omega) hpos
  · refine Nat.lt_of_mul_lt_mul_right (a := sessionCount cfg) ?_
    rw [Nat.add_mul]
    calc rateCfg.rlcTarget * sessionCount cfg
        = splitRate cores * sessionCount cfg + _ := hsplit.symm
      _ < _ := Nat.add_lt_add_left hcut _
  · constructor
    · intro heq c hc
      rw [heq] at hsplit
      have hzero := List.sum_eq_zero_iff.1 (Nat.add_eq_left.1 hsplit)
      refine Nat.dvd_of_mod_eq_zero (hzero _ ?_)
      rw [List.map_map]
      exact List.mem_map.2 ⟨c, hc, rfl⟩
    · intro hdvd
      refine Nat.eq_of_mul_eq_mul_right hpos ?_
      rw [← hsplit, List.map_map, List.sum_eq_zero, Nat.add_zero]
      intro n hn
      obtain ⟨c, hc, rfl⟩ := List.mem_map.1 hn
      exact Nat.mod_eq_zero_of_dvd (hdvd c hc)

end Cores

/-- The initialization of a test case splits every rate over the cores of the port: a limited
one in shares that miss it by less than one for each core with sessions. -/
theorem rate_split
    (connHash : ConnectionHash) (port : PortInfo) (cfg : TpgClient) (rate : TpgRate)
    (queues : List Nat) (memory : Nat → Bool) (fuel : Nat)
    (hvalid : validateTestCaseClient cfg = true)
    (hsports : cfg.tucSports.l4prEnd.toNat < 65535)
    (hdports : cfg.tucDports.l4prEnd.toNat < 65535)
    (hfew : sessionCount cfg < 2 ^ 32)
    (hqueues : queues.Perm (List.range port.qCnt))
    (hmemory : ∀ q, memory q = true)
    (hfuel : 2 ^ 32 ≤ fuel) :
    ∃ rateCfg cores,
      testInitTestCase connHash port fuel memory cfg rate queues = some (rateCfg, cores) ∧
        cores.map (·.rxQueueId) = queues ∧ rateCfg.rlcTarget = rate.target ∧
          rateCfg.rlcSlots.sum = rate.target ∧
            (rate.target ≠ rateLimInfiniteVal → LimitedSplit connHash port cfg rateCfg cores) ∧
              (rate.target = rateLimInfiniteVal → UnlimitedSplit rateCfg cores) := by
  have h : Countable cfg := ⟨rangesOk_of_validated hvalid, hsports, hdports, hfew⟩
  obtain ⟨rateCfg, hcfg, hslots, htarget⟩ := rateLimitCfgInit_total rate hfuel
  by_cases hunlimited : rate.target = rateLimInfiniteVal
  · obtain ⟨cores, hcores, hids, hall⟩ :=
      @initCores_unlimited connHash port cfg fuel memory h hfuel hmemory queues rateCfg
        (htarget.trans hunlimited)
    refine ⟨rateCfg, cores, ?_, hids, htarget, hslots.sum.trans htarget, fun hlimited => ?_,
      fun _ => hall⟩
    · rw [testInitTestCase, hcfg, Option.bind_eq_bind, Option.bind_some, hcores]
      rfl
    · exact absurd hunlimited hlimited
  · have hlimited : rateCfg.rlcTarget < rateLimInfiniteVal :=
      lt_of_le_of_ne hslots.target (htarget ▸ hunlimited)
    have hpos := sessionCount_pos h.ranges
    have hsessions := @sum_localSessions connHash port cfg queues hqueues
    have henough : (queues.map fun q => share rateCfg.rlcTarget (sessionCount cfg)
        (localSessions connHash port cfg q)).sum ≤ rateCfg.rlcSlots.sum := by
      have hsplit := @sum_share rateCfg.rlcTarget (sessionCount cfg)
        (queues.map (localSessions connHash port cfg))
      rw [hsessions, Nat.mul_comm (sessionCount cfg), List.map_map] at hsplit
      rw [hslots.sum]
      exact Nat.le_of_mul_le_mul_right (Nat.le.intro hsplit) hpos
    obtain ⟨cores, hcores, hids, hmoved, hshares⟩ :=
      initCores_limited h hfuel hmemory queues hlimited hslots.count henough
    refine ⟨rateCfg, cores, ?_, hids, htarget, hslots.sum.trans htarget,
      fun _ => limitedSplit_of_shares h hqueues hids hmoved hshares, fun hinf => ?_⟩
    · rw [testInitTestCase, hcfg, Option.bind_eq_bind, Option.bind_some, hcores]
      rfl
    · exact absurd hinf hunlimited

/-- Three source ports of one address pair, of which the last core of two has two. -/
def threePorts : TpgClient :=
  { twoPorts with tucSports := ⟨10001, 10003⟩ }

/-- Ten operations a second. -/
def tenPerSecond : TpgRate :=
  ⟨true, 10⟩

theorem rate_split_threePorts :
    ∃ rateCfg cores, testInitTestCase portHash twoQueues (2 ^ 32) (fun _ => true) threePorts
        tenPerSecond [0, 1] = some (rateCfg, cores) ∧
      LimitedSplit portHash twoQueues threePorts rateCfg cores := by
  obtain ⟨rateCfg, cores, hinit, -, -, -, hlimited, -⟩ :=
    rate_split portHash twoQueues threePorts tenPerSecond [0, 1] (fun _ => true) (2 ^ 32)
      (by decide) (by decide) (by decide) (by decide) (List.Perm.refl _) (fun _ => rfl) le_rfl
  exact ⟨rateCfg, cores, hinit, hlimited (by decide)⟩

/-- Shares of three and six: one operation a second is nobody's. -/
theorem tenPerSecond_not_split :
    validateTestCaseClient threePorts = true ∧
      (testInitTestCase portHash twoQueues 20 (fun _ => true) threePorts tenPerSecond
        [0, 1]).map (fun r => (r.1.rlcTarget, splitRate r.2)) = some (10, 9) :=
  ⟨by decide, by decide +kernel⟩

end RateSplit
end Warp17
