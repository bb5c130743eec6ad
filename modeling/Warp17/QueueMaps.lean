import Mathlib.Data.Set.Function
import Warp17.NumberText

/-!
# The queues of a port

A `--qmap` argument `<port>.<hex mask>` gives the cores of the mask one queue each on the port
(src/src/tpg_port.c).  The arguments are checked for repeated ports as text, when the command line
is read, and parsed only later, when the ports are known.

The arrays of ports and cores are functions; a port that does not exist has an entry too, whatever
the memory behind the array holds.

**Results**
- `Assigned.assignCore`: one core gets the next queue, and the first the default one.
- `portParseMappings_spec`: what an accepted argument does to its port and to the others.
- `parseAll_spec`, `parseAll_other`: the same for a list of arguments.
-/

namespace Warp17
namespace QueueMaps

open NumberText

/-- The lcores: the slaves in the order of `RTE_LCORE_FOREACH_SLAVE`, and `cfg_is_pkt_core`. -/
structure Lcores where
  slaves : List Nat
  isPktCore : Nat → Bool
  sorted : slaves.Pairwise (· < ·)
  below : ∀ core ∈ slaves, core < 64
  pkt_slave : ∀ core, isPktCore core = true → core ∈ slaves
  some_pkt : ∃ core, isPktCore core = true

/-! ## Masks -/

/-- `(uint64_t) 1 << (core)` -/
def coreBit (core : Nat) : BitVec 64 :=
  1#64 <<< core

/-- `PORT_COREID_IN_MASK` -/
def portCoreidInMask (mask : BitVec 64) (core : Nat) : Bool :=
  (mask &&& coreBit core) != 0

/-- `PORT_ADD_CORE_TO_MASK` -/
def portAddCoreToMask (mask : BitVec 64) (core : Nat) : BitVec 64 :=
  mask ||| coreBit core

/-- `PORT_DEL_CORE_FROM_MASK` -/
def portDelCoreFromMask (mask : BitVec 64) (core : Nat) : BitVec 64 :=
  mask &&& ~~~(coreBit core)

/-! ## The configuration of ports and cores -/

/-- `port_port_cfg_t` -/
structure PortPortCfg where
  ppcQCnt : Nat
  ppcCoreDefault : Nat
  ppcCoreMask : BitVec 64
deriving DecidableEq, Repr

/-- `port_port_cfg` by port, and `port_core_cfg[core].pcc_qport_map` by core and port. -/
structure PortConfig where
  portPortCfg : Nat → PortPortCfg
  qportMap : Nat → Nat → Int

/-- `CORE_PORT_QINVALID` -/
def corePortQinvalid : Int :=
  -1

/-- The arrays as `port_interfaces_init` allocates them, in front of the memory `past` them. -/
def allocated (portCount : Nat) (past : PortConfig) : PortConfig where
  portPortCfg port := if port < portCount then ⟨0, 0, 0⟩ else past.portPortCfg port
  qportMap core port := if port < portCount then corePortQinvalid else past.qportMap core port

/-- The next queue of the port goes to the core. -/
def assignCore (cfg : PortConfig) (port core : Nat) : PortConfig :=
  let entry := cfg.portPortCfg port
  { portPortCfg := Function.update cfg.portPortCfg port
      { ppcQCnt := entry.ppcQCnt + 1
        ppcCoreDefault := if entry.ppcQCnt = 0 then core else entry.ppcCoreDefault
        ppcCoreMask := portAddCoreToMask entry.ppcCoreMask core }
    qportMap := Function.update cfg.qportMap core
      (Function.update (cfg.qportMap core) port entry.ppcQCnt) }

/-- The loop over the slave cores; a core of the mask that handles no packets is an error. -/
def assignCores (lc : Lcores) (port : Nat) (intmask : BitVec 64) :
    List Nat → PortConfig → Option PortConfig
  | [], cfg => some cfg
  | core :: cores, cfg =>
      if portCoreidInMask intmask core then
        if lc.isPktCore core then assignCores lc port intmask cores (assignCore cfg port core)
        else none
      else assignCores lc port intmask cores cfg

/-! ## Arguments -/

/-- The number in front of the point. -/
def qmapPort (pcoreMask : List Char) : Option Int :=
  strtol (pcoreMask.takeWhile (· ≠ '.'))

/-- Remove `0x` if present. -/
def dropHexPrefix : List Char → List Char
  | '0' :: 'x' :: s => s
  | '0' :: 'X' :: s => s
  | s => s

/-- The mask after the point, `none` when there is no point or no number after it. -/
def qmapMask (pcoreMask : List Char) : Option (BitVec 64) :=
  match pcoreMask.dropWhile (· ≠ '.') with
  | [] => none
  | _ :: coreMask =>
      match strtoull (dropHexPrefix coreMask) with
      | (intmask, errno, endptr) =>
          if (errno ∧ intmask = 2 ^ 64 - 1) ∨ (errno ∧ intmask = 0) ∨ endptr ≠ [] then none
          else some (BitVec.ofNat 64 intmask)

/-- `none` where the source returns false. -/
def portParseMappings (lc : Lcores) (portCount : Nat) (cfg : PortConfig) (pcoreMask : List Char) :
    Option PortConfig := do
  let port ← qmapPort pcoreMask
  if port < 0 ∨ (portCount : Int) < port then none
  else
    let intmask ← qmapMask pcoreMask
    let cfg ← assignCores lc port.toNat intmask lc.slaves cfg
    if (cfg.portPortCfg port.toNat).ppcQCnt = 0 then none else some cfg

/-- The arguments one after the other, as `port_interfaces_init` parses them. -/
def parseAll (lc : Lcores) (portCount : Nat) : List (List Char) → PortConfig → Option PortConfig
  | [], cfg => some cfg
  | qmap :: args, cfg => (portParseMappings lc portCount cfg qmap).bind (parseAll lc portCount args)

/-! ## Masks as sets of cores -/

section Masks

variable {mask : BitVec 64} {core c : Nat}

theorem coreBit_eq
    (core : Nat) :
    coreBit core = BitVec.twoPow 64 core := by
  simp [coreBit, BitVec.twoPow]

theorem portCoreidInMask_eq
    (hcore : core < 64) :
    portCoreidInMask mask core = mask.getLsbD core := by
  rw [portCoreidInMask, coreBit_eq, BitVec.and_twoPow]
  cases mask.getLsbD core with
  | false =>
      simp
  | true =>
      simp only [if_true, bne_iff_ne, ne_eq]
      intro hzero
      have hbit := congrArg (fun b => b.getLsbD core) hzero
      simp [hcore] at hbit

theorem portCoreidInMask_add
    (hcore : core < 64)
    (hc : c < 64) :
    portCoreidInMask (portAddCoreToMask mask core) c =
      (portCoreidInMask mask c || decide (c = core)) := by
  rw [portCoreidInMask_eq hc, portCoreidInMask_eq hc, portAddCoreToMask, coreBit_eq,
    BitVec.getLsbD_or, BitVec.getLsbD_twoPow]
  simp only [hcore, decide_true, Bool.true_and, eq_comm]

theorem portCoreidInMask_del
    (hcore : core < 64)
    (hc : c < 64) :
    portCoreidInMask (portDelCoreFromMask mask core) c =
      (portCoreidInMask mask c && decide (c ≠ core)) := by
  rw [portCoreidInMask_eq hc, portCoreidInMask_eq hc, portDelCoreFromMask, coreBit_eq,
    BitVec.getLsbD_and, BitVec.getLsbD_not, BitVec.getLsbD_twoPow]
  simp only [hc, hcore, decide_true, Bool.true_and, ne_eq, eq_comm, decide_not]

theorem portCoreidInMask_zero
    (core : Nat) :
    portCoreidInMask 0#64 core = false := by
  simp [portCoreidInMask]

end Masks

/-! ## What an argument does -/

section Assigning

/-- The port has these cores, in the order of their queues, and no others. -/
structure Assigned (cfg : PortConfig) (port : Nat) (cores : List Nat) : Prop where
  qCnt : (cfg.portPortCfg port).ppcQCnt = cores.length
  mask : ∀ c < 64, portCoreidInMask (cfg.portPortCfg port).ppcCoreMask c = true ↔ c ∈ cores
  queue : ∀ c ∈ cores, cfg.qportMap c port = cores.idxOf c
  others : ∀ c, c ∉ cores → cfg.qportMap c port = corePortQinvalid
  first : ∀ c ∈ cores.head?, (cfg.portPortCfg port).ppcCoreDefault = c

/-- The entries of the port are the same. -/
def SameAt (cfg cfg' : PortConfig) (port : Nat) : Prop :=
  cfg'.portPortCfg port = cfg.portPortCfg port ∧
    ∀ core, cfg'.qportMap core port = cfg.qportMap core port

variable {cfg cfg' : PortConfig} {port q core : Nat} {cores : List Nat} {lc : Lcores}
  {intmask : BitVec 64}

theorem SameAt.refl
    (cfg : PortConfig) (port : Nat) :
    SameAt cfg cfg port :=
  ⟨rfl, fun _ => rfl⟩

theorem SameAt.trans
    {cfg'' : PortConfig}
    (h₁ : SameAt cfg cfg' port)
    (h₂ : SameAt cfg' cfg'' port) :
    SameAt cfg cfg'' port :=
  ⟨h₂.1.trans h₁.1, fun core => (h₂.2 core).trans (h₁.2 core)⟩

theorem Assigned.congr
    (hsame : SameAt cfg cfg' port)
    (hassigned : Assigned cfg port cores) :
    Assigned cfg' port cores := by
  obtain ⟨hentry, hmap⟩ := hsame
  refine ⟨?_, ?_, ?_, ?_, ?_⟩
  · rw [hentry]
    exact hassigned.qCnt
  · rw [hentry]
    exact hassigned.mask
  · intro c hc
    rw [hmap, hassigned.queue c hc]
  · intro c hc
    rw [hmap, hassigned.others c hc]
  · rw [hentry]
    exact hassigned.first

/-- An existing port begins without cores. -/
theorem assigned_allocated
    {portCount : Nat}
    (past : PortConfig)
    (hport : port < portCount) :
    Assigned (allocated portCount past) port [] := by
  refine ⟨?_, ?_, by simp, ?_, by simp⟩
  · simp [allocated, hport]
  · intro c hc
    simp [allocated, hport, portCoreidInMask_zero]
  · intro c hc
    simp [allocated, hport]

theorem sameAt_assignCore
    (hq : q ≠ port) :
    SameAt cfg (assignCore cfg port core) q := by
  refine ⟨by simp [assignCore, hq], fun c => ?_⟩
  rcases eq_or_ne c core with rfl | hc
  · simp [assignCore, hq]
  · simp [assignCore, hc]

/-- One more core gets the next queue. -/
theorem Assigned.assignCore
    (hassigned : Assigned cfg port cores)
    (hnew : core ∉ cores)
    (hcore : core < 64) :
    Assigned (assignCore cfg port core) port (cores ++ [core]) := by
  have hcnt := hassigned.qCnt
  refine ⟨?_, ?_, ?_, ?_, ?_⟩
  · simp [QueueMaps.assignCore, hcnt]
  · intro c hc
    simp only [QueueMaps.assignCore, Function.update_self]
    rw [portCoreidInMask_add hcore hc, Bool.or_eq_true, hassigned.mask c hc, decide_eq_true_iff,
      List.mem_append, List.mem_singleton]
  · intro c hc
    rcases eq_or_ne c core with rfl | hne
    · simp [QueueMaps.assignCore, hcnt, List.idxOf_append_of_notMem hnew]
    · have hmem : c ∈ cores := by
        simpa [hne] using hc
      simp [QueueMaps.assignCore, hne, hassigned.queue c hmem, List.idxOf_append_of_mem hmem]
  · intro c hc
    rw [List.mem_append, List.mem_singleton, not_or] at hc
    simp [QueueMaps.assignCore, hc.2, hassigned.others c hc.1]
  · intro c hc
    simp only [QueueMaps.assignCore, Function.update_self, hcnt]
    cases cores with
    | nil =>
        simpa using hc
    | cons d cores =>
        rw [if_neg (by simp)]
        exact hassigned.first c hc

/-- By induction on the slaves that are left. -/
theorem assignCores_spec
    {left : List Nat}
    (hrun : assignCores lc port intmask left cfg = some cfg') :
    (∀ q, q ≠ port → SameAt cfg cfg' q) ∧
      (Assigned cfg port cores → (cores ++ left).Nodup → (∀ c ∈ left, c < 64) →
        Assigned cfg' port (cores ++ left.filter (portCoreidInMask intmask))) := by
  induction left generalizing cfg cores with
  | nil =>
      obtain rfl := Option.some.inj hrun
      refine ⟨fun q _ => SameAt.refl cfg q, fun hassigned _ _ => ?_⟩
      rwa [List.filter_nil, List.append_nil]
  | cons c left ih =>
      rw [assignCores] at hrun
      by_cases hin : portCoreidInMask intmask c = true
      · rw [if_pos hin] at hrun
        by_cases hpkt : lc.isPktCore c = true
        · rw [if_pos hpkt] at hrun
          obtain ⟨hsame, hrest⟩ := @ih _ (cores ++ [c]) hrun
          refine ⟨fun q hq => (sameAt_assignCore hq).trans (hsame q hq), ?_⟩
          intro hassigned hnodup hbelow
          rw [List.append_cons] at hnodup
          have hnew : c ∉ cores := by
            intro hmem
            have hdup := (List.nodup_append.1 (List.nodup_append.1 hnodup).1).2.2
            exact hdup c hmem c (by simp) rfl
          rw [List.filter_cons_of_pos hin, List.append_cons]
          exact hrest (hassigned.assignCore hnew (hbelow c (by simp))) hnodup
            (fun d hd => hbelow d (by simp [hd]))
        · rw [if_neg hpkt] at hrun
          cases hrun
      · rw [if_neg hin] at hrun
        obtain ⟨hsame, hrest⟩ := @ih _ cores hrun
        refine ⟨hsame, fun hassigned hnodup hbelow => ?_⟩
        rw [List.filter_cons_of_neg hin]
        refine hrest hassigned (hnodup.sublist ?_) (fun d hd => hbelow d (by simp [hd]))
        exact (List.sublist_cons_self c left).append_left cores

/-- The cores that a mask names. -/
def coresOf (lc : Lcores) (intmask : BitVec 64) : List Nat :=
  lc.slaves.filter (portCoreidInMask intmask)

theorem nodup_slaves
    (lc : Lcores) :
    lc.slaves.Nodup :=
  lc.sorted.imp ne_of_lt

/-- The argument is for this port and has this mask. -/
structure QmapArg (portCount : Nat) (arg : List Char) (port : Nat) (intmask : BitVec 64) :
    Prop where
  port_eq : qmapPort arg = some (port : Int)
  port_le : port ≤ portCount
  mask_eq : qmapMask arg = some intmask

theorem portParseMappings_spec
    {portCount : Nat} {arg : List Char}
    (hparse : portParseMappings lc portCount cfg arg = some cfg') :
    ∃ port intmask, QmapArg portCount arg port intmask ∧
      (∀ q, q ≠ port → SameAt cfg cfg' q) ∧
      (Assigned cfg port [] →
        Assigned cfg' port (coresOf lc intmask) ∧ coresOf lc intmask ≠ []) := by
  rw [portParseMappings] at hparse
  obtain ⟨port, hport, hparse⟩ := Option.bind_eq_some_iff.1 hparse
  split at hparse
  next =>
    cases hparse
  next hrange =>
    rw [not_or, not_lt, not_lt] at hrange
    obtain ⟨intmask, hmask, hparse⟩ := Option.bind_eq_some_iff.1 hparse
    obtain ⟨assigned, hrun, hparse⟩ := Option.bind_eq_some_iff.1 hparse
    split at hparse
    next =>
      cases hparse
    next hcnt =>
      obtain rfl := Option.some.inj hparse
      obtain ⟨hsame, hassigned⟩ := @assignCores_spec _ _ _ [] _ _ _ hrun
      refine ⟨port.toNat, intmask, ⟨?_, by omega, hmask⟩, hsame, fun hfresh => ?_⟩
      · rw [hport, Int.toNat_of_nonneg hrange.1]
      · have hdone := hassigned hfresh (nodup_slaves lc) lc.below
        refine ⟨hdone, fun hnil => hcnt ?_⟩
        rw [hdone.qCnt, List.nil_append]
        exact List.length_eq_zero_iff.2 hnil

theorem assignCores_some
    {left : List Nat}
    (cfg : PortConfig)
    (hpkt : ∀ c ∈ left.filter (portCoreidInMask intmask), lc.isPktCore c = true) :
    ∃ cfg', assignCores lc port intmask left cfg = some cfg' := by
  induction left generalizing cfg with
  | nil =>
      exact ⟨cfg, rfl⟩
  | cons c left ih =>
      rw [assignCores]
      by_cases hin : portCoreidInMask intmask c = true
      · rw [List.filter_cons_of_pos hin] at hpkt
        rw [if_pos hin, if_pos (hpkt c (by simp))]
        exact ih _ (fun d hd => hpkt d (by simp [hd]))
      · rw [List.filter_cons_of_neg hin] at hpkt
        rw [if_neg hin]
        exact ih _ hpkt

/-- An argument for an existing port whose mask has packet cores, and no others, is accepted. -/
theorem portParseMappings_some
    {portCount : Nat} {arg : List Char}
    (harg : QmapArg portCount arg port intmask)
    (hpkt : ∀ c ∈ coresOf lc intmask, lc.isPktCore c = true)
    (hcores : coresOf lc intmask ≠ [])
    (hfresh : Assigned cfg port []) :
    ∃ cfg', portParseMappings lc portCount cfg arg = some cfg' := by
  obtain ⟨cfg', hrun⟩ := @assignCores_some port lc intmask lc.slaves cfg hpkt
  obtain ⟨-, hassigned⟩ := @assignCores_spec _ _ _ [] _ _ _ hrun
  have hcnt := (hassigned hfresh (nodup_slaves lc) lc.below).qCnt
  have hpos := List.length_pos_iff.2 hcores
  refine ⟨cfg', ?_⟩
  have hrange : ¬ ((port : Int) < 0 ∨ (portCount : Int) < port) := by
    have hle := harg.port_le
    omega
  have hne : ¬ (cfg'.portPortCfg port).ppcQCnt = 0 := by
    rw [hcnt, List.nil_append]
    exact hpos.ne'
  rw [portParseMappings, harg.port_eq, Option.bind_eq_bind, Option.bind_some, if_neg hrange,
    harg.mask_eq, Option.bind_eq_bind, Option.bind_some, Int.toNat_natCast, hrun,
    Option.bind_eq_bind, Option.bind_some, if_neg hne]

end Assigning

/-! ## Lists of arguments -/

section Arguments

variable {lc : Lcores} {portCount : Nat} {cfg cfg' : PortConfig} {args : List (List Char)}

/-- The number of the port of an argument, and 0 where there is none. -/
def portOf (arg : List Char) : Nat :=
  ((qmapPort arg).getD 0).toNat

/-- The cores of the mask of an argument. -/
def argCores (lc : Lcores) (arg : List Char) : List Nat :=
  coresOf lc ((qmapMask arg).getD 0)

theorem QmapArg.portOf_eq
    {arg : List Char} {port : Nat} {intmask : BitVec 64}
    (harg : QmapArg portCount arg port intmask) :
    portOf arg = port := by
  rw [portOf, harg.port_eq]
  rfl

theorem QmapArg.argCores_eq
    {arg : List Char} {port : Nat} {intmask : BitVec 64}
    (harg : QmapArg portCount arg port intmask)
    (lc : Lcores) :
    argCores lc arg = coresOf lc intmask := by
  rw [argCores, harg.mask_eq]
  rfl

/-- A port that no argument names keeps what it has. -/
theorem parseAll_other
    (hparse : parseAll lc portCount args cfg = some cfg')
    {q : Nat}
    (hq : q ∉ args.map portOf) :
    SameAt cfg cfg' q := by
  induction args generalizing cfg with
  | nil =>
      obtain rfl := Option.some.inj hparse
      exact SameAt.refl cfg q
  | cons arg args ih =>
      obtain ⟨mid, hfirst, hrest⟩ := Option.bind_eq_some_iff.1 hparse
      obtain ⟨port, intmask, harg, hsame, -⟩ := portParseMappings_spec hfirst
      rw [List.map_cons, List.mem_cons, not_or, harg.portOf_eq] at hq
      exact (hsame q hq.1).trans (ih hrest hq.2)

/-- Where no port is named twice, each named port has the cores of its own mask. -/
theorem parseAll_spec
    (hparse : parseAll lc portCount args cfg = some cfg')
    (hnodup : (args.map portOf).Nodup)
    (hfresh : ∀ arg ∈ args, Assigned cfg (portOf arg) []) :
    ∀ arg ∈ args, Assigned cfg' (portOf arg) (argCores lc arg) ∧ argCores lc arg ≠ [] := by
  induction args generalizing cfg with
  | nil =>
      simp
  | cons arg args ih =>
      obtain ⟨mid, hfirst, hrest⟩ := Option.bind_eq_some_iff.1 hparse
      obtain ⟨port, intmask, harg, hsame, hassigned⟩ := portParseMappings_spec hfirst
      rw [List.map_cons, List.nodup_cons, harg.portOf_eq] at hnodup
      intro a ha
      rcases List.mem_cons.1 ha with rfl | ha
      · have hself := hfresh a (by simp)
        rw [harg.portOf_eq] at hself ⊢
        rw [harg.argCores_eq]
        obtain ⟨hdone, hne⟩ := hassigned hself
        exact ⟨hdone.congr (parseAll_other hrest hnodup.1), hne⟩
      · refine ih hrest hnodup.2 (fun b hb => ?_) a ha
        refine (hfresh b (by simp [hb])).congr (hsame _ ?_)
        rintro hport
        exact hnodup.1 (by rw [← hport]; exact List.mem_map_of_mem hb)

/-- Arguments for different existing ports with packet cores only are all accepted. -/
theorem parseAll_some
    (hargs : ∀ arg ∈ args, ∃ port intmask, QmapArg portCount arg port intmask ∧
      (∀ c ∈ coresOf lc intmask, lc.isPktCore c = true) ∧ coresOf lc intmask ≠ [])
    (hnodup : (args.map portOf).Nodup)
    (hfresh : ∀ arg ∈ args, Assigned cfg (portOf arg) []) :
    ∃ cfg', parseAll lc portCount args cfg = some cfg' := by
  induction args generalizing cfg with
  | nil =>
      exact ⟨cfg, rfl⟩
  | cons arg args ih =>
      obtain ⟨port, intmask, harg, hpkt, hcores⟩ := hargs arg (by simp)
      rw [List.map_cons, List.nodup_cons, harg.portOf_eq] at hnodup
      have hself := hfresh arg (by simp)
      rw [harg.portOf_eq] at hself
      obtain ⟨mid, hmid⟩ := portParseMappings_some harg hpkt hcores hself
      obtain ⟨port', intmask', harg', hsame, -⟩ := portParseMappings_spec hmid
      obtain rfl : port' = port := by
        rw [← harg'.portOf_eq, harg.portOf_eq]
      obtain ⟨cfg', hrest⟩ := @ih mid (fun b hb => hargs b (by simp [hb])) hnodup.2 (fun b hb => by
        refine (hfresh b (by simp [hb])).congr (hsame _ ?_)
        rintro hport
        exact hnodup.1 (by rw [← hport]; exact List.mem_map_of_mem hb))
      exact ⟨cfg', by rw [parseAll, hmid, Option.bind_some, hrest]⟩

end Arguments

end QueueMaps
end Warp17
