import Warp17.WordLoops
import Warp17.SequenceComparison

/-!
# The sessions of a client test case

A client configuration names ranges of addresses and ports; every combination is a session.
`test_case_for_each_client` walks all of them on every packet core of the port and keeps those
whose packets the receive queue of the core gets, by the toeplitz hash of the connection.
`test_case_client_cfg_count` computes how many there are.

The hash is a parameter: nothing but its being a function of the four numbers matters here.

**Results**
- `sessions_partitioned_iff`: for accepted configurations the walks end and partition the
  sessions, and the count is right, exactly when both port ranges stay below 65535 and the
  number of sessions below 2^32.
-/

namespace Warp17
namespace ClientSessions

open SequenceComparison WordLoops

abbrev U16 := BitVec 16

/-! ## Configurations -/

/-- `IpV` -/
inductive IpVersion
  | ipv4
  | ipv6
deriving DecidableEq, Repr

/-- `tpg_ip_t` -/
structure TpgIp where
  ipVersion : IpVersion
  ipV4 : U32
deriving DecidableEq, Repr

/-- `tpg_ip_range_t` -/
structure TpgIpRange where
  iprStart : TpgIp
  iprEnd : TpgIp
deriving DecidableEq, Repr

/-- `tpg_l4_port_range_t` -/
structure TpgL4PortRange where
  l4prStart : U32
  l4prEnd : U32
deriving DecidableEq, Repr

/-- `tpg_l4_proto_t` -/
inductive L4Proto
  | udp
  | tcp
  | l4ProtoMax
deriving DecidableEq, Repr

/-- What `tpg_client_t` says about the sessions. -/
structure TpgClient where
  clSrcIps : TpgIpRange
  clDstIps : TpgIpRange
  l4cProto : L4Proto
  tucSports : TpgL4PortRange
  tucDports : TpgL4PortRange
  clMcastSrc : Bool
deriving DecidableEq, Repr

/-- `TPG_IPV4` -/
def tpgIpv4 (val : U32) : TpgIp :=
  ⟨.ipv4, val⟩

def tpgIpGT (i1 i2 : TpgIp) : Bool :=
  i1.ipVersion == i2.ipVersion && (i1.ipVersion == .ipv4 && i2.ipV4 < i1.ipV4)

def tpgIpEQ (i1 i2 : TpgIp) : Bool :=
  i1.ipVersion == i2.ipVersion && (i1.ipVersion == .ipv4 && i1.ipV4 == i2.ipV4)

def tpgIpGE (i1 i2 : TpgIp) : Bool :=
  tpgIpGT i1 i2 || tpgIpEQ i1 i2

def tpgIpMcast (ip : TpgIp) : Bool :=
  ip.ipVersion == .ipv4 && ip.ipV4 &&& 0xF0000000 == 0xE0000000

def tpgIpBcast (ip : TpgIp) : Bool :=
  ip.ipVersion == .ipv4 && ip.ipV4 == 0xFFFFFFFF

def validateIpRange (range : TpgIpRange) : Bool :=
  tpgIpGE range.iprEnd range.iprStart

def validateIpUnicastRange (range : TpgIpRange) : Bool :=
  -- `TPG_IP_MCAST_MIN` tests the address of the version, so both bounds are IPv4 addresses
  let minMcastIp := tpgIpv4 0xE0000000
  let maxMcastIp := tpgIpv4 0xEFFFFFFF
  if !validateIpRange range then false
  else if tpgIpGE range.iprStart minMcastIp && tpgIpGE maxMcastIp range.iprEnd then false
  else if tpgIpGE range.iprEnd minMcastIp && tpgIpGE maxMcastIp range.iprEnd then false
  else if tpgIpGE range.iprEnd maxMcastIp && tpgIpGE minMcastIp range.iprStart then false
  else if tpgIpBcast range.iprEnd then false
  else true

def validateIpMcastRange (range : TpgIpRange) : Bool :=
  validateIpRange range && tpgIpMcast range.iprStart && tpgIpMcast range.iprEnd

def validateL4portRange (range : TpgL4PortRange) : Bool :=
  range.l4prStart ≤ 0xFFFF && range.l4prEnd ≤ 0xFFFF && range.l4prStart ≤ range.l4prEnd

def validateClientL4 (cfg : TpgClient) : Bool :=
  match cfg.l4cProto with
  | .tcp | .udp => validateL4portRange cfg.tucSports && validateL4portRange cfg.tucDports
  | .l4ProtoMax => false

/-- `test_mgmt_validate_test_case_client` -/
def validateTestCaseClient (cfg : TpgClient) : Bool :=
  if !validateIpRange cfg.clSrcIps then false
  else if !validateIpRange cfg.clDstIps then false
  else if !validateClientL4 cfg then false
  else if cfg.clMcastSrc && !validateIpMcastRange cfg.clDstIps then false
  else if cfg.clMcastSrc && cfg.l4cProto != .udp then false
  else if !cfg.clMcastSrc && !validateIpUnicastRange cfg.clDstIps then false
  else if !validateIpUnicastRange cfg.clSrcIps then false
  else true

/-! ## The walk -/

/-- The addresses and ports of a session, as the client sees them. -/
structure ClientSession where
  srcIp : U32
  dstIp : U32
  srcPort : U16
  dstPort : U16
deriving DecidableEq, Repr

/-- `port_dev_info` and `port_port_cfg`: the queues of a port and its indirection table. -/
structure PortInfo where
  qCnt : Nat
  /-- `pi_adjusted_reta_size` -/
  retaSize : Nat
  qCnt_pos : 0 < qCnt
  reta_pos : 0 < retaSize

/-- `tlkp_calc_connection_hash(local, remote, local_port, remote_port)` -/
abbrev ConnectionHash := U32 → U32 → U16 → U16 → U32

def tlkpGetQindexFromHash (port : PortInfo) (hash : U32) : Nat :=
  hash.toNat % port.retaSize % port.qCnt

/-- The queue that receives the packets of a session. -/
def rxQueue (connHash : ConnectionHash) (port : PortInfo) (s : ClientSession) : Nat :=
  tlkpGetQindexFromHash port (connHash s.dstIp s.srcIp s.dstPort s.srcPort)

/-- `TPG_IPV4_FOREACH` -/
def tpgIpv4Foreach (fuel : Nat) (range : TpgIpRange)
    (body : U32 → Option (List ClientSession)) : Option (List ClientSession) :=
  forUpTo body range.iprEnd.ipV4.toNat fuel range.iprStart.ipV4

/-- `TPG_PORT_FOREACH`; the loop variable has 16 bits, the range 32. -/
def tpgPortForeach (fuel : Nat) (range : TpgL4PortRange)
    (body : U16 → Option (List ClientSession)) : Option (List ClientSession) :=
  forUpTo body range.l4prEnd.toNat fuel (BitVec.ofNat 16 range.l4prStart.toNat)

/-- The sessions that the core with the receive queue `rxQueueId` calls back, in order. -/
def testCaseForEachClient (connHash : ConnectionHash) (port : PortInfo) (fuel : Nat)
    (cfg : TpgClient) (rxQueueId : Nat) : Option (List ClientSession) :=
  tpgIpv4Foreach fuel cfg.clDstIps fun dstIp =>
    tpgPortForeach fuel cfg.tucDports fun dstPort =>
      tpgIpv4Foreach fuel cfg.clSrcIps fun srcIp =>
        tpgPortForeach fuel cfg.tucSports fun srcPort =>
          let s := ⟨srcIp, dstIp, srcPort, dstPort⟩
          if rxQueue connHash port s ≠ rxQueueId then some [] else some [s]

def tpgIpv4RangeSize (range : TpgIpRange) : U32 :=
  range.iprEnd.ipV4 - range.iprStart.ipV4 + 1

def tpgPortRangeSize (range : TpgL4PortRange) : U32 :=
  range.l4prEnd - range.l4prStart + 1

def testCaseClientCfgCount (cfg : TpgClient) : U32 :=
  tpgIpv4RangeSize cfg.clSrcIps * tpgIpv4RangeSize cfg.clDstIps *
    tpgPortRangeSize cfg.tucSports * tpgPortRangeSize cfg.tucDports

/-! ## All sessions -/

def ipValues (range : TpgIpRange) : List U32 :=
  wordsUpTo 32 range.iprStart.ipV4.toNat range.iprEnd.ipV4.toNat

def portValues (range : TpgL4PortRange) : List U16 :=
  wordsUpTo 16 range.l4prStart.toNat range.l4prEnd.toNat

/-- The sessions that a configuration names. -/
structure Named (cfg : TpgClient) (s : ClientSession) : Prop where
  srcIp : cfg.clSrcIps.iprStart.ipV4 ≤ s.srcIp ∧ s.srcIp ≤ cfg.clSrcIps.iprEnd.ipV4
  dstIp : cfg.clDstIps.iprStart.ipV4 ≤ s.dstIp ∧ s.dstIp ≤ cfg.clDstIps.iprEnd.ipV4
  srcPort : cfg.tucSports.l4prStart.toNat ≤ s.srcPort.toNat ∧
    s.srcPort.toNat ≤ cfg.tucSports.l4prEnd.toNat
  dstPort : cfg.tucDports.l4prStart.toNat ≤ s.dstPort.toNat ∧
    s.dstPort.toNat ≤ cfg.tucDports.l4prEnd.toNat

/-- The sessions in the order of the walk. -/
def allSessions (cfg : TpgClient) : List ClientSession :=
  (ipValues cfg.clDstIps).flatMap fun dstIp =>
    (portValues cfg.tucDports).flatMap fun dstPort =>
      (ipValues cfg.clSrcIps).flatMap fun srcIp =>
        (portValues cfg.tucSports).map fun srcPort => ⟨srcIp, dstIp, srcPort, dstPort⟩

/-- The number of sessions. -/
def sessionCount (cfg : TpgClient) : Nat :=
  (ipValues cfg.clSrcIps).length * (ipValues cfg.clDstIps).length *
    (portValues cfg.tucSports).length * (portValues cfg.tucDports).length

/-- What the checks leave of a configuration. -/
structure RangesOk (cfg : TpgClient) : Prop where
  srcIps : cfg.clSrcIps.iprStart.ipV4.toNat ≤ cfg.clSrcIps.iprEnd.ipV4.toNat
  dstIps : cfg.clDstIps.iprStart.ipV4.toNat ≤ cfg.clDstIps.iprEnd.ipV4.toNat
  srcEnd : cfg.clSrcIps.iprEnd.ipV4.toNat + 1 < 2 ^ 32
  dstEnd : cfg.clDstIps.iprEnd.ipV4.toNat + 1 < 2 ^ 32
  sports : cfg.tucSports.l4prStart.toNat ≤ cfg.tucSports.l4prEnd.toNat
  dports : cfg.tucDports.l4prStart.toNat ≤ cfg.tucDports.l4prEnd.toNat
  sportsEnd : cfg.tucSports.l4prEnd.toNat < 2 ^ 16
  dportsEnd : cfg.tucDports.l4prEnd.toNat < 2 ^ 16

section Ranges

variable {a b : TpgIp} {range : TpgIpRange} {cfg : TpgClient}

theorem tpgIpGE_iff :
    tpgIpGE a b = true ↔
      (a.ipVersion = .ipv4 ∧ b.ipVersion = .ipv4) ∧ b.ipV4.toNat ≤ a.ipV4.toNat := by
  rw [tpgIpGE, tpgIpGT, tpgIpEQ, Nat.le_iff_lt_or_eq]
  simp only [Bool.or_eq_true, Bool.and_eq_true, beq_iff_eq, decide_eq_true_eq, BitVec.lt_def,
    BitVec.toNat_eq, eq_comm (a := b.ipV4.toNat)]
  constructor
  · rintro (⟨hv, h4, hlt⟩ | ⟨hv, h4, heq⟩)
    · exact ⟨⟨h4, hv ▸ h4⟩, .inl hlt⟩
    · exact ⟨⟨h4, hv ▸ h4⟩, .inr heq⟩
  · rintro ⟨⟨ha, hb⟩, hlt | heq⟩
    · exact .inl ⟨ha.trans hb.symm, ha, hlt⟩
    · exact .inr ⟨ha.trans hb.symm, ha, heq⟩

theorem succ_lt_of_ne
    {ip : U32}
    (hne : ip ≠ 0xFFFFFFFF) :
    ip.toNat + 1 < 2 ^ 32 := by
  have hlt := ip.isLt
  have hnat : ip.toNat ≠ 0xFFFFFFFF := fun heq => hne (BitVec.eq_of_toNat_eq heq)
  omega

theorem validateIpUnicastRange_end
    (h : validateIpUnicastRange range = true) :
    range.iprEnd.ipV4.toNat + 1 < 2 ^ 32 := by
  have hchecked : validateIpRange range = true ∧ tpgIpBcast range.iprEnd = false := by
    simp only [validateIpUnicastRange] at h
    cases hrange : validateIpRange range <;> cases hbcast : tpgIpBcast range.iprEnd <;>
      simp [hrange, hbcast] at h ⊢
  have hv := (tpgIpGE_iff.1 hchecked.1).1.1
  exact succ_lt_of_ne (by simpa [tpgIpBcast, hv] using hchecked.2)

theorem validateIpMcastRange_end
    (h : validateIpMcastRange range = true) :
    range.iprEnd.ipV4.toNat + 1 < 2 ^ 32 := by
  simp only [validateIpMcastRange, tpgIpMcast, Bool.and_eq_true, beq_iff_eq] at h
  refine succ_lt_of_ne fun heq => ?_
  have hprefix := h.2.2
  rw [heq] at hprefix
  exact absurd hprefix (by decide)

theorem validateL4portRange_ok
    {ports : TpgL4PortRange}
    (h : validateL4portRange ports = true) :
    ports.l4prStart.toNat ≤ ports.l4prEnd.toNat ∧ ports.l4prEnd.toNat < 2 ^ 16 := by
  simp only [validateL4portRange, Bool.and_eq_true, decide_eq_true_eq, BitVec.le_def] at h
  have hmax : (0xFFFF : U32).toNat = 65535 := rfl
  rw [hmax] at h
  omega

/-- What the checks of the management API say about an accepted configuration. -/
theorem rangesOk_of_validated
    (h : validateTestCaseClient cfg = true) :
    RangesOk cfg := by
  unfold validateTestCaseClient at h
  split at h
  · cases h
  rename_i hsrc
  split at h
  · cases h
  rename_i hdst
  split at h
  · cases h
  rename_i hl4
  split at h
  · cases h
  rename_i hmcast
  split at h
  · cases h
  split at h
  · cases h
  rename_i hucast
  split at h
  · cases h
  rename_i hsrcUcast
  have hports : validateL4portRange cfg.tucSports = true ∧
      validateL4portRange cfg.tucDports = true := by
    have hl4' : validateClientL4 cfg = true := by simpa using hl4
    unfold validateClientL4 at hl4'
    split at hl4'
    · simpa using hl4'
    · simpa using hl4'
    · cases hl4'
  have hdstEnd : cfg.clDstIps.iprEnd.ipV4.toNat + 1 < 2 ^ 32 := by
    cases hsource : cfg.clMcastSrc with
    | true =>
        exact validateIpMcastRange_end (by simpa [hsource] using hmcast)
    | false =>
        exact validateIpUnicastRange_end (by simpa [hsource] using hucast)
  obtain ⟨hsports, hsportsEnd⟩ := validateL4portRange_ok hports.1
  obtain ⟨hdports, hdportsEnd⟩ := validateL4portRange_ok hports.2
  exact ⟨(tpgIpGE_iff.1 (by simpa [validateIpRange] using hsrc)).2,
    (tpgIpGE_iff.1 (by simpa [validateIpRange] using hdst)).2,
    validateIpUnicastRange_end (by simpa using hsrcUcast), hdstEnd, hsports, hdports,
    hsportsEnd, hdportsEnd⟩

end Ranges

/-! ## The walks of all cores -/

section Walks

variable {connHash : ConnectionHash} {port : PortInfo} {cfg : TpgClient} {fuel : Nat}

/-- Values of a loop variable whose bodies return one or no session. -/
theorem flatMap_filter
    {σ τ : Type} (xs : List σ) (g : σ → τ) (p : τ → Prop) [DecidablePred p] :
    (xs.flatMap fun x => if p (g x) then [g x] else []) = (xs.map g).filter (p ·) := by
  induction xs with
  | nil =>
      rfl
  | cons x xs ih =>
      by_cases hp : p (g x) <;> simp [hp, ih]

theorem tpgIpv4Foreach_ends
    {range : TpgIpRange} {body : U32 → Option (List ClientSession)}
    {f : U32 → List ClientSession}
    (hend : range.iprEnd.ipV4.toNat + 1 < 2 ^ 32)
    (hfuel : 2 ^ 32 ≤ fuel)
    (hbody : ∀ x, body x = some (f x)) :
    tpgIpv4Foreach fuel range body = some ((ipValues range).flatMap f) := by
  have hends := @forUpTo_ends 32 _ range.iprStart.ipV4.toNat _ body f fuel hend
    (fun x _ => hbody x) range.iprStart.ipV4.isLt (by omega)
  rwa [BitVec.ofNat_toNat, BitVec.setWidth_eq] at hends

theorem tpgPortForeach_ends
    {range : TpgL4PortRange} {body : U16 → Option (List ClientSession)}
    {f : U16 → List ClientSession}
    (hle : range.l4prStart.toNat ≤ range.l4prEnd.toNat)
    (hend : range.l4prEnd.toNat + 1 < 2 ^ 16)
    (hfuel : 2 ^ 32 ≤ fuel)
    (hbody : ∀ x, body x = some (f x)) :
    tpgPortForeach fuel range body = some ((portValues range).flatMap f) :=
  forUpTo_ends hend (fun x _ => hbody x) (by omega) (by omega)

/-- Below the last port the walk of every core ends, with the sessions of its queue. -/
theorem testCaseForEachClient_ends
    (h : RangesOk cfg)
    (hsports : cfg.tucSports.l4prEnd.toNat < 65535)
    (hdports : cfg.tucDports.l4prEnd.toNat < 65535)
    (hfuel : 2 ^ 32 ≤ fuel)
    (q : Nat) :
    testCaseForEachClient connHash port fuel cfg q =
      some ((allSessions cfg).filter (rxQueue connHash port · = q)) := by
  have hinner : ∀ dstIp dstPort srcIp,
      (tpgPortForeach fuel cfg.tucSports fun srcPort =>
        if rxQueue connHash port ⟨srcIp, dstIp, srcPort, dstPort⟩ ≠ q then some []
        else some [⟨srcIp, dstIp, srcPort, dstPort⟩]) =
      some (((portValues cfg.tucSports).map (ClientSession.mk srcIp dstIp · dstPort)).filter
        (rxQueue connHash port · = q)) := by
    intro dstIp dstPort srcIp
    rw [← flatMap_filter]
    refine tpgPortForeach_ends h.sports (by omega) hfuel fun srcPort => ?_
    split <;> simp_all
  simp only [testCaseForEachClient, allSessions, List.filter_flatMap]
  refine tpgIpv4Foreach_ends h.dstEnd hfuel fun dstIp => ?_
  refine tpgPortForeach_ends h.dports (by omega) hfuel fun dstPort => ?_
  exact tpgIpv4Foreach_ends h.srcEnd hfuel fun srcIp => hinner dstIp dstPort srcIp

theorem tpgIpv4Foreach_some
    {range : TpgIpRange} {body : U32 → Option (List ClientSession)}
    {f : U32 → List ClientSession} {seen : List ClientSession}
    (hend : range.iprEnd.ipV4.toNat + 1 < 2 ^ 32)
    (hbody : ∀ x v, body x = some v → v = f x)
    (h : tpgIpv4Foreach fuel range body = some seen) :
    seen = (ipValues range).flatMap f := by
  refine @forUpTo_some 32 _ range.iprStart.ipV4.toNat _ body f fuel seen hend hbody
    range.iprStart.ipV4.isLt ?_
  rwa [BitVec.ofNat_toNat, BitVec.setWidth_eq]

theorem tpgPortForeach_some
    {range : TpgL4PortRange} {body : U16 → Option (List ClientSession)}
    {f : U16 → List ClientSession} {seen : List ClientSession}
    (hle : range.l4prStart.toNat ≤ range.l4prEnd.toNat)
    (hend : range.l4prEnd.toNat + 1 < 2 ^ 16)
    (hbody : ∀ x v, body x = some v → v = f x)
    (h : tpgPortForeach fuel range body = some seen) :
    seen = (portValues range).flatMap f :=
  forUpTo_some hend hbody (by omega) h

/-- A walk that ends has called back the sessions of its queue, whatever the fuel was. -/
theorem testCaseForEachClient_some
    {q : Nat} {seen : List ClientSession}
    (h : RangesOk cfg)
    (hsports : cfg.tucSports.l4prEnd.toNat < 65535)
    (hdports : cfg.tucDports.l4prEnd.toNat < 65535)
    (hwalk : testCaseForEachClient connHash port fuel cfg q = some seen) :
    seen = (allSessions cfg).filter (rxQueue connHash port · = q) := by
  simp only [allSessions, List.filter_flatMap]
  refine tpgIpv4Foreach_some h.dstEnd (fun dstIp _ hdst => ?_) hwalk
  refine tpgPortForeach_some h.dports (by omega) (fun dstPort _ hdport => ?_) hdst
  refine tpgIpv4Foreach_some h.srcEnd (fun srcIp _ hsrc => ?_) hdport
  rw [← flatMap_filter]
  refine tpgPortForeach_some h.sports (by omega) (fun srcPort v hv => ?_) hsrc
  simp only [ne_eq] at hv
  split at hv <;> simp_all

/-- With a range up to the last port no core's walk ends. -/
theorem testCaseForEachClient_endless
    (h : RangesOk cfg)
    (hports : cfg.tucSports.l4prEnd.toNat = 65535 ∨ cfg.tucDports.l4prEnd.toNat = 65535)
    (fuel q : Nat) :
    testCaseForEachClient connHash port fuel cfg q = none := by
  refine forUpTo_of_body h.dstIps ?_ fuel
  rcases hports with hsports | hdports
  · have hstart : (BitVec.ofNat 16 cfg.tucDports.l4prStart.toNat).toNat ≤
        cfg.tucDports.l4prEnd.toNat := by
      have := h.dports
      rw [BitVec.toNat_ofNat]
      exact (Nat.mod_le _ _).trans this
    refine forUpTo_of_body hstart ?_ fuel
    refine forUpTo_of_body h.srcIps ?_ fuel
    exact forUpTo_endless (by omega) fuel _
  · exact forUpTo_endless (by omega) fuel _

theorem mem_allSessions
    (h : RangesOk cfg)
    (s : ClientSession) :
    s ∈ allSessions cfg ↔ Named cfg s := by
  have hsrc := h.srcEnd
  have hdst := h.dstEnd
  have hmem : s ∈ allSessions cfg ↔
      s.dstIp ∈ ipValues cfg.clDstIps ∧ s.dstPort ∈ portValues cfg.tucDports ∧
        s.srcIp ∈ ipValues cfg.clSrcIps ∧ s.srcPort ∈ portValues cfg.tucSports := by
    simp only [allSessions, List.mem_flatMap, List.mem_map]
    constructor
    · rintro ⟨dstIp, hdstIp, dstPort, hdstPort, srcIp, hsrcIp, srcPort, hsrcPort, rfl⟩
      exact ⟨hdstIp, hdstPort, hsrcIp, hsrcPort⟩
    · rintro ⟨hdstIp, hdstPort, hsrcIp, hsrcPort⟩
      exact ⟨_, hdstIp, _, hdstPort, _, hsrcIp, _, hsrcPort, rfl⟩
  rw [hmem, ipValues, ipValues, portValues, portValues, mem_wordsUpTo (by omega),
    mem_wordsUpTo h.dportsEnd, mem_wordsUpTo (by omega), mem_wordsUpTo h.sportsEnd]
  constructor
  · rintro ⟨hdstIp, hdstPort, hsrcIp, hsrcPort⟩
    exact ⟨hsrcIp, hdstIp, hsrcPort, hdstPort⟩
  · rintro ⟨hsrcIp, hdstIp, hsrcPort, hdstPort⟩
    exact ⟨hdstIp, hdstPort, hsrcIp, hsrcPort⟩

theorem length_allSessions :
    (allSessions cfg).length = sessionCount cfg := by
  simp only [allSessions, List.length_flatMap, List.length_map, List.map_const', List.sum_replicate,
    smul_eq_mul, sessionCount]
  ring

theorem nodup_allSessions
    (h : RangesOk cfg) :
    (allSessions cfg).Nodup := by
  have hsrc := h.srcEnd
  have hdst := h.dstEnd
  refine List.nodup_flatMap.2 ⟨fun dstIp _ => List.nodup_flatMap.2 ⟨fun dstPort _ =>
    List.nodup_flatMap.2 ⟨fun srcIp _ => ?_, ?_⟩, ?_⟩, ?_⟩
  · refine (nodup_wordsUpTo h.sportsEnd).map fun a b heq => ?_
    exact congrArg ClientSession.srcPort heq
  · refine (nodup_wordsUpTo (by omega)).imp fun hne => ?_
    simp only [List.disjoint_left, List.mem_map]
    rintro s ⟨_, _, rfl⟩ ⟨_, _, heq⟩
    exact hne (congrArg ClientSession.srcIp heq).symm
  · refine (nodup_wordsUpTo h.dportsEnd).imp fun hne => ?_
    simp only [List.disjoint_left, List.mem_flatMap, List.mem_map]
    rintro s ⟨_, _, _, _, rfl⟩ ⟨_, _, _, _, heq⟩
    exact hne (congrArg ClientSession.dstPort heq).symm
  · refine (nodup_wordsUpTo (by omega)).imp fun hne => ?_
    simp only [List.disjoint_left, List.mem_flatMap, List.mem_map]
    rintro s ⟨_, _, _, _, _, _, rfl⟩ ⟨_, _, _, _, _, _, heq⟩
    exact hne (congrArg ClientSession.dstIp heq).symm

/-- The computed count is the number of sessions modulo 2^32. -/
theorem testCaseClientCfgCount_eq
    (h : RangesOk cfg) :
    testCaseClientCfgCount cfg = BitVec.ofNat 32 (sessionCount cfg) := by
  have hsize : ∀ a b : U32, a.toNat ≤ b.toNat →
      b - a + 1 = BitVec.ofNat 32 (b.toNat + 1 - a.toNat) := by
    intro a b hle
    rw [show b.toNat + 1 - a.toNat = (b.toNat - a.toNat) + 1 by omega, BitVec.ofNat_add]
    congr 1
    apply BitVec.eq_of_toNat_eq
    rw [BitVec.toNat_sub_of_le hle, BitVec.toNat_ofNat, Nat.mod_eq_of_lt (by omega)]
  rw [testCaseClientCfgCount, tpgIpv4RangeSize, tpgIpv4RangeSize, tpgPortRangeSize,
    tpgPortRangeSize, hsize _ _ h.srcIps, hsize _ _ h.dstIps, hsize _ _ h.sports,
    hsize _ _ h.dports, ← BitVec.ofNat_mul, ← BitVec.ofNat_mul, ← BitVec.ofNat_mul]
  simp [sessionCount, ipValues, portValues]

/-- Every session is in exactly one of the parts. -/
theorem sum_length_filter
    {σ : Type} {n : Nat} (f : σ → Nat) (l : List σ)
    (hf : ∀ x ∈ l, f x < n) :
    ∑ q ∈ Finset.range n, (l.filter (f · = q)).length = l.length := by
  induction l with
  | nil =>
      simp
  | cons x l ih =>
      have hx := hf x (by simp)
      have hcons : ∀ q, ((x :: l).filter (f · = q)).length =
          (if f x = q then 1 else 0) + (l.filter (f · = q)).length := by
        intro q
        by_cases hq : f x = q <;> simp [hq, Nat.add_comm]
      simp only [hcons, Finset.sum_add_distrib, Finset.sum_ite_eq, Finset.mem_range, if_pos hx,
        ih fun y hy => hf y (List.mem_cons_of_mem x hy), List.length_cons]
      omega

end Walks

/-- The walks of all cores end, each session of the configuration is called back exactly once
and by exactly one core, nothing else is, and the calls are as many as the count says. -/
def SessionsPartitioned (connHash : ConnectionHash) (port : PortInfo) (cfg : TpgClient) : Prop :=
  ∃ fuel, ∃ visits : Nat → List ClientSession,
    (∀ q < port.qCnt, testCaseForEachClient connHash port fuel cfg q = some (visits q)) ∧
      (∀ s, Named cfg s → ∃ q < port.qCnt, (visits q).count s = 1 ∧
        ∀ q' < port.qCnt, q' ≠ q → s ∉ visits q') ∧
      (∀ q < port.qCnt, ∀ s ∈ visits q, Named cfg s) ∧
      ∑ q ∈ Finset.range port.qCnt, (visits q).length = (testCaseClientCfgCount cfg).toNat

/-- Exactly the configurations whose port ranges end below 65535 and whose sessions the 32-bit
count holds are partitioned over the cores. -/
theorem sessions_partitioned_iff
    (connHash : ConnectionHash) (port : PortInfo) (cfg : TpgClient)
    (hvalid : validateTestCaseClient cfg = true) :
    SessionsPartitioned connHash port cfg ↔
      cfg.tucSports.l4prEnd.toNat < 65535 ∧ cfg.tucDports.l4prEnd.toNat < 65535 ∧
        sessionCount cfg < 2 ^ 32 := by
  have h := rangesOk_of_validated hvalid
  have hqueue : ∀ s, rxQueue connHash port s < port.qCnt := fun s => Nat.mod_lt _ port.qCnt_pos
  have hcount : (testCaseClientCfgCount cfg).toNat = sessionCount cfg % 2 ^ 32 := by
    rw [testCaseClientCfgCount_eq h, BitVec.toNat_ofNat]
  have hall : ∑ q ∈ Finset.range port.qCnt,
      ((allSessions cfg).filter (rxQueue connHash port · = q)).length = sessionCount cfg := by
    rw [sum_length_filter _ _ fun s _ => hqueue s, length_allSessions]
  constructor
  · rintro ⟨fuel, visits, hends, -, -, hsum⟩
    have hends0 := hends 0 port.qCnt_pos
    have hports :
        ¬ (cfg.tucSports.l4prEnd.toNat = 65535 ∨ cfg.tucDports.l4prEnd.toNat = 65535) := by
      intro hports
      rw [testCaseForEachClient_endless h hports fuel 0] at hends0
      cases hends0
    have hsports := h.sportsEnd
    have hdports := h.dportsEnd
    have hvisits : ∑ q ∈ Finset.range port.qCnt, (visits q).length = sessionCount cfg := by
      rw [← hall]
      refine Finset.sum_congr rfl fun q hq => ?_
      rw [testCaseForEachClient_some h (by omega) (by omega) (hends q (Finset.mem_range.1 hq))]
    refine ⟨by omega, by omega, ?_⟩
    rw [← hvisits, hsum]
    exact BitVec.isLt _
  · rintro ⟨hsports, hdports, hfew⟩
    refine ⟨2 ^ 32, fun q => (allSessions cfg).filter (rxQueue connHash port · = q),
      fun q _ => testCaseForEachClient_ends h hsports hdports le_rfl q, ?_, ?_, ?_⟩
    · intro s hs
      refine ⟨rxQueue connHash port s, hqueue s, ?_, ?_⟩
      · refine List.count_eq_one_of_mem ((nodup_allSessions h).filter _) ?_
        simp [mem_allSessions h, hs]
      · intro q' _ hne
        simp [Ne.symm hne]
    · intro q _ s hs
      exact (mem_allSessions h s).1 (List.mem_of_mem_filter hs)
    · rw [hall, hcount, Nat.mod_eq_of_lt hfew]

/-- Two source ports of one address pair. -/
def twoPorts : TpgClient where
  clSrcIps := ⟨tpgIpv4 0x0A000001, tpgIpv4 0x0A000001⟩
  clDstIps := ⟨tpgIpv4 0x0A0000FD, tpgIpv4 0x0A0000FD⟩
  l4cProto := .tcp
  tucSports := ⟨10001, 10002⟩
  tucDports := ⟨6000, 6000⟩
  clMcastSrc := false

/-- Every source port up to the last. -/
def everyPort : TpgClient :=
  { twoPorts with tucSports := ⟨1, 65535⟩ }

/-- A hash of the client's port alone. -/
def portHash : ConnectionHash :=
  fun _ _ _ srcPort => srcPort.setWidth 32

def twoQueues : PortInfo :=
  ⟨2, 128, by decide, by decide⟩

theorem sessions_partitioned_iff_twoPorts :
    validateTestCaseClient twoPorts = true ∧ SessionsPartitioned portHash twoQueues twoPorts :=
  ⟨by decide, (sessions_partitioned_iff portHash twoQueues twoPorts (by decide)).2 (by decide)⟩

/-- The 16-bit loop variable is never above 65535: no core comes back from the walk. -/
theorem everyPort_not_partitioned :
    validateTestCaseClient everyPort = true ∧
      ¬ SessionsPartitioned portHash twoQueues everyPort := by
  refine ⟨by decide, ?_⟩
  rintro ⟨fuel, visits, hends, -⟩
  have hranges : RangesOk everyPort := rangesOk_of_validated (by decide)
  have hnone : testCaseForEachClient portHash twoQueues fuel everyPort 0 = none :=
    testCaseForEachClient_endless hranges (.inl rfl) fuel 0
  rw [hends 0 (by decide)] at hnone
  cases hnone

end ClientSessions
end Warp17
