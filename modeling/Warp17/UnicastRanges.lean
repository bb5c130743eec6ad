import Warp17.ClientSessions

/-!
# Unicast ranges

`test_mgmt_validate_ip_unicast_range` compares the two ends of a range with the two ends of the
multicast block and with the broadcast address (src/src/tpg_test_mgmt_api.c).  Ranges that lie
around the block or end inside it are refused; a range that starts inside the block, behind its
first address, and ends behind it is not.

**Results**
- `validateIpUnicastRange_iff`: what the comparisons say about the ends.
- `unicastRange_iff`: what the ends say about all the addresses between them.
- `acceptsUnicast_iff`: the ranges for which the check is right, and their sessions.
-/

namespace Warp17
namespace UnicastRanges

open ClientSessions SequenceComparison

/-- Neither a multicast address nor the limited broadcast. -/
def Unicast (ip : U32) : Prop :=
  tpgIpMcast (tpgIpv4 ip) = false ∧ tpgIpBcast (tpgIpv4 ip) = false

/-- An IPv4 range with unicast addresses only. -/
def UnicastRange (start stop : U32) : Prop :=
  start ≤ stop ∧ ∀ ip, start ≤ ip → ip ≤ stop → Unicast ip

/-- `TPG_IPV4_RANGE` -/
def tpgIpv4Range (start stop : U32) : TpgIpRange :=
  ⟨tpgIpv4 start, tpgIpv4 stop⟩

/-- No session of a configuration with the range has anything but a unicast address from it. -/
def SessionsUnicast (range : TpgIpRange) : Prop :=
  ∀ connHash port fuel cfg q seen, validateTestCaseClient cfg = true →
    testCaseForEachClient connHash port fuel cfg q = some seen →
    ∀ s ∈ seen, (cfg.clSrcIps = range → Unicast s.srcIp) ∧
      (cfg.clDstIps = range → Unicast s.dstIp)

/-- The check accepts exactly the unicast ranges, and their sessions are unicast. -/
def AcceptsUnicast (start stop : U32) : Prop :=
  (validateIpUnicastRange (tpgIpv4Range start stop) = true ↔ UnicastRange start stop) ∧
    (validateIpUnicastRange (tpgIpv4Range start stop) = true →
      SessionsUnicast (tpgIpv4Range start stop))

section Prefix

variable {ip start stop : U32}

/-- The first four bits of an address, in their place. -/
theorem toNat_and_prefix
    (ip : U32) :
    (ip &&& 0xF0000000).toNat = ip.toNat / 2 ^ 28 * 2 ^ 28 := by
  have hlt := ip.isLt
  have hhigh : (ip.toNat &&& 0xF0000000) / 2 ^ 28 = ip.toNat / 2 ^ 28 := by
    rw [Nat.and_div_two_pow, show 0xF0000000 / 2 ^ 28 = 2 ^ 4 - 1 by norm_num,
      Nat.and_two_pow_sub_one_eq_mod, Nat.mod_eq_of_lt (by omega)]
  have hlow : (ip.toNat &&& 0xF0000000) % 2 ^ 28 = 0 := by
    rw [Nat.and_mod_two_pow, show 0xF0000000 % 2 ^ 28 = 0 by norm_num, Nat.and_zero]
  calc (ip &&& 0xF0000000).toNat
      = ip.toNat &&& 0xF0000000 := BitVec.toNat_and _ _
    _ = ip.toNat / 2 ^ 28 * 2 ^ 28 := by omega

/-- The multicast addresses are those of the block. -/
theorem tpgIpMcast_iff :
    tpgIpMcast (tpgIpv4 ip) = true ↔ 0xE0000000 ≤ ip.toNat ∧ ip.toNat ≤ 0xEFFFFFFF := by
  have hprefix := toNat_and_prefix ip
  simp only [tpgIpMcast, tpgIpv4, beq_self_eq_true, Bool.true_and, beq_iff_eq, BitVec.toNat_eq,
    hprefix]
  rw [show (0xE0000000 : U32).toNat = 0xE0000000 from rfl]
  omega

theorem tpgIpBcast_iff :
    tpgIpBcast (tpgIpv4 ip) = true ↔ ip.toNat = 0xFFFFFFFF := by
  simp only [tpgIpBcast, tpgIpv4, beq_self_eq_true, Bool.true_and, beq_iff_eq, BitVec.toNat_eq]
  rw [show (0xFFFFFFFF : U32).toNat = 0xFFFFFFFF from rfl]

theorem unicast_iff :
    Unicast ip ↔ (ip.toNat < 0xE0000000 ∨ 0xEFFFFFFF < ip.toNat) ∧ ip.toNat ≠ 0xFFFFFFFF := by
  rw [Unicast, ← Bool.not_eq_true, ← Bool.not_eq_true, tpgIpMcast_iff, tpgIpBcast_iff]
  omega

end Prefix

section Ranges

variable {start stop : U32}

theorem tpgIpGE_ipv4
    (a b : U32) :
    tpgIpGE (tpgIpv4 a) (tpgIpv4 b) = decide (b.toNat ≤ a.toNat) := by
  rw [Bool.eq_iff_iff, tpgIpGE_iff, decide_eq_true_iff]
  exact ⟨fun h => h.2, fun h => ⟨⟨rfl, rfl⟩, h⟩⟩

/-- What the comparisons ask of the ends. -/
theorem validateIpUnicastRange_iff :
    validateIpUnicastRange (tpgIpv4Range start stop) = true ↔
      start.toNat ≤ stop.toNat ∧ stop.toNat ≠ 0xFFFFFFFF ∧
        (stop.toNat < 0xE0000000 ∨ 0xEFFFFFFF < stop.toNat ∧ 0xE0000000 < start.toNat) := by
  have hbcast : tpgIpBcast (tpgIpv4 stop) = decide (stop.toNat = 0xFFFFFFFF) := by
    rw [Bool.eq_iff_iff, tpgIpBcast_iff, decide_eq_true_iff]
  have hmin : (0xE0000000 : U32).toNat = 0xE0000000 := rfl
  have hmax : (0xEFFFFFFF : U32).toNat = 0xEFFFFFFF := rfl
  simp only [validateIpUnicastRange, validateIpRange, tpgIpv4Range, tpgIpGE_ipv4, hbcast, hmin,
    hmax, Bool.not_eq_true', decide_eq_false_iff_not, Bool.and_eq_true, decide_eq_true_eq]
  split_ifs <;> simp <;> omega

/-- The ends of a unicast range: it lies in front of the multicast block or behind it. -/
theorem unicastRange_iff :
    UnicastRange start stop ↔
      start.toNat ≤ stop.toNat ∧ stop.toNat ≠ 0xFFFFFFFF ∧
        (stop.toNat < 0xE0000000 ∨ 0xEFFFFFFF < start.toNat) := by
  constructor
  · rintro ⟨hle, hall⟩
    rw [BitVec.le_def] at hle
    have hstop := unicast_iff.1 (hall stop hle (BitVec.le_refl stop))
    refine ⟨hle, hstop.2, ?_⟩
    by_contra hcross
    rw [not_or, not_lt, not_lt] at hcross
    -- the larger of the start and the first multicast address is a multicast address
    rcases Nat.le_total 0xE0000000 start.toNat with hinside | hbefore
    · have hstart := unicast_iff.1 (hall start (BitVec.le_refl start) hle)
      omega
    · have hfirst := unicast_iff.1 (hall 0xE0000000 hbefore hcross.1)
      rw [show (0xE0000000 : U32).toNat = 0xE0000000 from rfl] at hfirst
      omega
  · rintro ⟨hle, hbcast, hside⟩
    refine ⟨hle, fun ip hstart hstop => ?_⟩
    rw [BitVec.le_def] at hstart hstop
    rw [unicast_iff]
    omega

/-- Every session that a walk calls back is one that the configuration names. -/
theorem named_of_seen
    {connHash : ConnectionHash} {port : PortInfo} {fuel q : Nat} {cfg : TpgClient}
    {seen : List ClientSession}
    (hvalid : validateTestCaseClient cfg = true)
    (hwalk : testCaseForEachClient connHash port fuel cfg q = some seen) :
    ∀ s ∈ seen, Named cfg s := by
  have hranges := rangesOk_of_validated hvalid
  have hports : ¬ (cfg.tucSports.l4prEnd.toNat = 65535 ∨ cfg.tucDports.l4prEnd.toNat = 65535) := by
    intro hports
    rw [testCaseForEachClient_endless hranges hports fuel q] at hwalk
    cases hwalk
  have hsports := hranges.sportsEnd
  have hdports := hranges.dportsEnd
  intro s hs
  rw [testCaseForEachClient_some hranges (by omega) (by omega) hwalk] at hs
  exact (mem_allSessions hranges s).1 (List.mem_of_mem_filter hs)

theorem sessionsUnicast_of_range
    (hrange : UnicastRange start stop) :
    SessionsUnicast (tpgIpv4Range start stop) := by
  intro connHash port fuel cfg q seen hvalid hwalk s hs
  have hnamed := named_of_seen hvalid hwalk s hs
  refine ⟨fun hsrc => ?_, fun hdst => ?_⟩
  · have hip := hnamed.srcIp
    rw [hsrc] at hip
    exact hrange.2 s.srcIp hip.1 hip.2
  · have hip := hnamed.dstIp
    rw [hdst] at hip
    exact hrange.2 s.dstIp hip.1 hip.2

/-- The check is wrong exactly for the ranges that start inside the multicast block, behind its
first address, and end behind it. -/
theorem acceptsUnicast_iff
    (start stop : U32) :
    AcceptsUnicast start stop ↔
      ¬ (0xE0000000 < start ∧ start ≤ 0xEFFFFFFF ∧ 0xEFFFFFFF < stop ∧ stop < 0xFFFFFFFF) := by
  have hstop := stop.isLt
  simp only [BitVec.lt_def, BitVec.le_def]
  rw [show (0xE0000000 : U32).toNat = 0xE0000000 from rfl,
    show (0xEFFFFFFF : U32).toNat = 0xEFFFFFFF from rfl,
    show (0xFFFFFFFF : U32).toNat = 0xFFFFFFFF from rfl]
  constructor
  · rintro ⟨hexact, -⟩
    rw [validateIpUnicastRange_iff, unicastRange_iff] at hexact
    omega
  · intro hgood
    have hexact : validateIpUnicastRange (tpgIpv4Range start stop) = true ↔
        UnicastRange start stop := by
      rw [validateIpUnicastRange_iff, unicastRange_iff]
      omega
    exact ⟨hexact, fun haccepted => sessionsUnicast_of_range (hexact.1 haccepted)⟩

/-- The range 224.0.0.1 to 240.0.0.1 is accepted although its first address is multicast. -/
theorem mcast_start_accepted :
    ¬ AcceptsUnicast 0xE0000001 0xF0000001 := by
  rintro ⟨hexact, -⟩
  have hrange := hexact.1 (by decide)
  have hstart := hrange.2 0xE0000001 (BitVec.le_refl _) (by decide)
  exact absurd hstart.1 (by decide)

end Ranges

end UnicastRanges
end Warp17
