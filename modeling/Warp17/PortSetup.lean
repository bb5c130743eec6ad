import Warp17.CoreAssignment

/-!
# From the command line to the queues of the ports

The `--qmap` and `--qmap-default` options are collected, checked against the number of ports, or
replaced by the text of the default masks, and all the arguments are parsed when the interfaces are
initialized (src/src/tpg_port.c).

The array of the arguments has 65 entries; the explicit arguments are counted, the made-up ones are
not.

**Results**
- `queueMapOk_iff`: accepted arguments give every port its queues if and only if they name every
  port exactly once.
- `parseAll_qmapText`: what the made-up arguments give.
- `coreQueueMap_iff`: both ways to configure the ports.
-/

namespace Warp17
namespace PortSetup

open NumberText QueueMaps CoreAssignment

/-- How the setup fails. -/
inductive Fault
  | exit
  | abort
  | diverges
  | overflow
deriving DecidableEq, Repr

inductive QmapDefault
  | maxQ
  | maxC
deriving DecidableEq, Repr

/-- `qmap_args` and `qmap_default` -/
structure PortCmdline where
  qmapArgs : List (List Char)
  qmapDefault : Option QmapDefault
deriving DecidableEq, Repr

/-- `TPG_ETH_DEV_MAX` -/
def tpgEthDevMax : Nat :=
  64

/-- Whether the texts are the same up to and including a point. -/
def samePort : List Char → List Char → Bool
  | old :: olds, new :: news =>
      if old = new ∧ old ≠ '.' then samePort olds news else decide (old = new ∧ old = '.')
  | _, _ => false

def portHandleCmdlineOptQmap (line : PortCmdline) (qmapStr : List Char) : Option PortCmdline :=
  if line.qmapArgs.length = tpgEthDevMax then none
  else if line.qmapArgs.any (samePort · qmapStr) then none
  else some { line with qmapArgs := line.qmapArgs ++ [qmapStr] }

/-- One option; `none` is `CAPR_ERROR`, options of other modules are ignored. -/
def portHandleCmdlineOpt (line : PortCmdline) (optName optArg : List Char) : Option PortCmdline :=
  if optName = "qmap".toList then portHandleCmdlineOptQmap line optArg
  else if optName = "qmap-default".toList then
    if optArg = "max-q".toList then some { line with qmapDefault := some .maxQ }
    else if optArg = "max-c".toList then some { line with qmapDefault := some .maxC }
    else none
  else some line

/-- All the options of a command line. -/
def readOptions : List (List Char × List Char) → PortCmdline → Option PortCmdline
  | [], line => some line
  | opt :: opts, line => (portHandleCmdlineOpt line opt.1 opt.2).bind (readOptions opts)

/-- `sprintf` of `%u.0x%lX` -/
def qmapText (pcoreMask : Nat → BitVec 64) (port : Nat) : List Char :=
  showDigits 10 port ++ ('.' :: '0' :: 'x' :: showDigits 16 (pcoreMask port).toNat)

/-- The masks of a default. -/
def defaultMasks (lc : Lcores) (ports : Ports) (fuel : Nat) :
    QmapDefault → Except Fault (Nat → BitVec 64)
  | .maxQ => .ok (portHandleCmdlineOptQmapMaxq lc ports)
  | .maxC =>
      match portHandleCmdlineOptQmapMaxc lc ports fuel with
      | none => .error .diverges
      | some none => .error .abort
      | some (some masks) => .ok masks

/-- The arguments to parse; `qmap_args` has `TPG_ETH_DEV_MAX + 1` entries. -/
def portHandleCmdline (lc : Lcores) (ports : Ports) (fuel : Nat) (line : PortCmdline) :
    Except Fault (List (List Char)) :=
  if line.qmapArgs ≠ [] then
    if line.qmapDefault ≠ none then .error .exit
    else if line.qmapArgs.length ≠ ports.portGetPreInitPortCount then .error .exit
    else .ok line.qmapArgs
  else do
    let masks ← defaultMasks lc ports fuel (line.qmapDefault.getD .maxC)
    if tpgEthDevMax + 1 < ports.portGetPreInitPortCount then .error .overflow
    else .ok ((List.range ports.portGetPreInitPortCount).map (qmapText masks))

/-- The part of `port_interfaces_init` that fills the arrays. -/
def portInterfacesInit (lc : Lcores) (ports : Ports) (past : PortConfig)
    (qmapArgs : List (List Char)) : Except Fault PortConfig :=
  if ports.portGetPreInitPortCount = 0 then .error .exit
  else
    match parseAll lc ports.portGetPreInitPortCount qmapArgs
        (allocated ports.portGetPreInitPortCount past) with
    | some cfg => .ok cfg
    | none => .error .exit

/-- From the options to the filled arrays. -/
def portSetup (lc : Lcores) (ports : Ports) (past : PortConfig) (fuel : Nat)
    (opts : List (List Char × List Char)) : Except Fault PortConfig :=
  match readOptions opts ⟨[], none⟩ with
  | none => .error .exit
  | some line => do
      let qmapArgs ← portHandleCmdline lc ports fuel line
      portInterfacesInit lc ports past qmapArgs

/-! ## What the setup is for -/

/-- The cores of a port. -/
def portCores (cfg : PortConfig) (port : Nat) : Set Nat :=
  {core | core < 64 ∧ portCoreidInMask (cfg.portPortCfg port).ppcCoreMask core = true}

/-- The queue ids below a count. -/
def queueIds (qCnt : Nat) : Set Int :=
  {q | 0 ≤ q ∧ q < qCnt}

/-- Every port has its queues, one for each of its cores, and nothing else is written. -/
structure QueueMapOk (portCount : Nat) (past cfg : PortConfig) : Prop where
  some_core : ∀ port < portCount, (portCores cfg port).Nonempty
  written : ∀ port, portCount ≤ port → SameAt (allocated portCount past) cfg port
  queues : ∀ port < portCount, Set.BijOn (fun core => cfg.qportMap core port) (portCores cfg port)
    (queueIds (cfg.portPortCfg port).ppcQCnt)
  default_core : ∀ port < portCount,
    (cfg.portPortCfg port).ppcCoreDefault ∈ portCores cfg port ∧
      cfg.qportMap (cfg.portPortCfg port).ppcCoreDefault port = 0

/-- One core for each KNI port, and equally many for the two ends of a ring pair. -/
structure VirtualPortsOk (ports : Ports) (cfg : PortConfig) : Prop where
  kni : ∀ port, ports.portPreInitIsKniPort port = true → (cfg.portPortCfg port).ppcQCnt = 1
  pair : ∀ i < ports.ringIfPairs,
    (cfg.portPortCfg (ports.ethDevs + 2 * i)).ppcQCnt =
      (cfg.portPortCfg (ports.ethDevs + 2 * i + 1)).ppcQCnt

/-- With enough fuel a default ends with good queues; without any ports there is only the exit. -/
def DefaultSettles (lc : Lcores) (ports : Ports) (past : PortConfig)
    (opts : List (List Char × List Char)) : Prop :=
  ∃ enough, ∀ fuel, enough < fuel →
    (ports.portGetPreInitPortCount = 0 ∧ portSetup lc ports past fuel opts = .error .exit) ∨
    ∃ cfg, portSetup lc ports past fuel opts = .ok cfg ∧
      QueueMapOk ports.portGetPreInitPortCount past cfg ∧ VirtualPortsOk ports cfg

/-! ## Explicit arguments -/

section Explicit

variable {lc : Lcores} {portCount port : Nat} {past cfg : PortConfig} {args : List (List Char)}
  {cores : List Nat}

theorem mem_portCores
    (hassigned : Assigned cfg port cores)
    (hbelow : ∀ c ∈ cores, c < 64)
    {c : Nat} :
    c ∈ portCores cfg port ↔ c ∈ cores := by
  constructor
  · rintro ⟨hc, hin⟩
    exact (hassigned.mask c hc).1 hin
  · intro hc
    exact ⟨hbelow c hc, (hassigned.mask c (hbelow c hc)).2 hc⟩

/-- The queue of a core is its place among the cores. -/
theorem bijOn_queueIds
    (hassigned : Assigned cfg port cores)
    (hbelow : ∀ c ∈ cores, c < 64)
    (hnodup : cores.Nodup) :
    Set.BijOn (fun core => cfg.qportMap core port) (portCores cfg port)
      (queueIds (cfg.portPortCfg port).ppcQCnt) := by
  have hmem := fun c => @mem_portCores port cfg cores hassigned hbelow c
  refine ⟨?_, ?_, ?_⟩
  · intro c hc
    have hin := (hmem c).1 hc
    have hlt := List.idxOf_lt_length_of_mem hin
    simp only [queueIds, Set.mem_ofPred_eq, hassigned.queue c hin, hassigned.qCnt]
    omega
  · intro c hc d hd heq
    have hcin := (hmem c).1 hc
    have hdin := (hmem d).1 hd
    simp only [hassigned.queue c hcin, hassigned.queue d hdin] at heq
    exact (List.idxOf_inj hcin).1 (Int.ofNat_inj.1 heq)
  · rintro q ⟨hq, hlt⟩
    rw [hassigned.qCnt] at hlt
    have hbound : q.toNat < cores.length := by
      omega
    have hin := List.getElem_mem hbound
    refine ⟨cores[q.toNat], (hmem _).2 hin, ?_⟩
    simp only [hassigned.queue _ hin, hnodup.idxOf_getElem _ hbound]
    exact Int.toNat_of_nonneg hq

theorem default_core_of_assigned
    (hassigned : Assigned cfg port cores)
    (hbelow : ∀ c ∈ cores, c < 64)
    (hcores : cores ≠ []) :
    (cfg.portPortCfg port).ppcCoreDefault ∈ portCores cfg port ∧
      cfg.qportMap (cfg.portPortCfg port).ppcCoreDefault port = 0 := by
  obtain ⟨core, rest, rfl⟩ := List.exists_cons_of_ne_nil hcores
  rw [hassigned.first core rfl]
  refine ⟨(mem_portCores hassigned hbelow).2 (by simp), ?_⟩
  rw [hassigned.queue core (by simp), List.idxOf_cons_self]
  rfl

theorem argCores_lt
    (lc : Lcores) (arg : List Char) :
    ∀ c ∈ argCores lc arg, c < 64 :=
  fun c hc => lc.below c (List.mem_filter.1 hc).1

/-- Parsing begins with ports without cores. -/
theorem fresh_of_perm
    (past : PortConfig)
    (hperm : (args.map portOf).Perm (List.range portCount)) :
    ∀ arg ∈ args, Assigned (allocated portCount past) (portOf arg) [] := by
  intro arg harg
  refine assigned_allocated past (List.mem_range.1 ?_)
  exact hperm.mem_iff.1 (List.mem_map_of_mem harg)

theorem queueMapOk_of_perm
    (hparse : parseAll lc portCount args (allocated portCount past) = some cfg)
    (hperm : (args.map portOf).Perm (List.range portCount)) :
    QueueMapOk portCount past cfg := by
  have hspec := parseAll_spec hparse (hperm.nodup_iff.2 List.nodup_range)
    (fresh_of_perm past hperm)
  have hport : ∀ port < portCount, ∃ cores, Assigned cfg port cores ∧ cores ≠ [] ∧
      (∀ c ∈ cores, c < 64) ∧ cores.Nodup := by
    intro port hlt
    obtain ⟨arg, harg, rfl⟩ := List.mem_map.1 (hperm.mem_iff.2 (List.mem_range.2 hlt))
    obtain ⟨hassigned, hcores⟩ := hspec arg harg
    exact ⟨_, hassigned, hcores, argCores_lt lc arg, (nodup_slaves lc).filter _⟩
  refine ⟨fun port hlt => ?_, fun port hge => parseAll_other hparse ?_, fun port hlt => ?_,
    fun port hlt => ?_⟩
  · obtain ⟨cores, hassigned, hcores, hbelow, -⟩ := hport port hlt
    exact ⟨_, (default_core_of_assigned hassigned hbelow hcores).1⟩
  · rw [hperm.mem_iff, List.mem_range]
    omega
  · obtain ⟨cores, hassigned, -, hbelow, hnodup⟩ := hport port hlt
    exact bijOn_queueIds hassigned hbelow hnodup
  · obtain ⟨cores, hassigned, hcores, hbelow, -⟩ := hport port hlt
    exact default_core_of_assigned hassigned hbelow hcores

/-- A port without an argument has no cores, so as many arguments as ports name each port once. -/
theorem queueMapOk_iff
    (hparse : parseAll lc portCount args (allocated portCount past) = some cfg)
    (hlength : args.length = portCount) :
    QueueMapOk portCount past cfg ↔ (args.map portOf).Perm (List.range portCount) := by
  refine ⟨fun hok => ?_, queueMapOk_of_perm hparse⟩
  have hnamed : List.range portCount ⊆ args.map portOf := by
    intro port hport
    have hlt := List.mem_range.1 hport
    by_contra hother
    obtain ⟨core, hcore, hin⟩ := hok.some_core port hlt
    have hempty := (assigned_allocated past hlt).congr (parseAll_other hparse hother)
    exact absurd ((hempty.mask core hcore).1 hin) List.not_mem_nil
  refine (List.nodup_range.subperm hnamed).perm_of_length_le ?_ |>.symm
  rw [List.length_map, List.length_range, hlength]

end Explicit

/-! ## The texts of a default -/

section Default

variable {lc : Lcores} {ports : Ports} {masks : Nat → BitVec 64} {past : PortConfig}

/-- The text of a mask is read back. -/
theorem qmapArg_qmapText
    {portCount port : Nat}
    (masks : Nat → BitVec 64)
    (hcount : portCount < 2 ^ 63)
    (hport : port < portCount) :
    QmapArg portCount (qmapText masks port) port (masks port) := by
  have hpoint : '.' ∉ showDigits 10 port :=
    not_mem_showDigits (by omega) (by omega) port (by decide)
  have hdigits : ∀ c ∈ showDigits 10 port, decide (c ≠ '.') = true := by
    intro c hc
    rw [decide_eq_true_iff]
    rintro rfl
    exact hpoint hc
  refine ⟨?_, hport.le, ?_⟩
  · rw [qmapPort, qmapText, List.takeWhile_append_of_pos hdigits,
      List.takeWhile_cons_of_neg (by simp), List.append_nil, strtol_showDigits (by omega)]
  · rw [qmapMask, qmapText, List.dropWhile_append_of_pos hdigits,
      List.dropWhile_cons_of_neg (by simp)]
    simp only [dropHexPrefix, strtoull_showDigits (masks port).isLt, BitVec.ofNat_toNat,
      BitVec.setWidth_eq]
    simp

theorem portOf_qmapText
    {portCount : Nat}
    (masks : Nat → BitVec 64)
    (hcount : portCount < 2 ^ 63) :
    ((List.range portCount).map (qmapText masks)).map portOf = List.range portCount := by
  rw [List.map_map]
  calc (List.range portCount).map (portOf ∘ qmapText masks)
      = (List.range portCount).map id := by
        refine List.map_congr_left fun port hport => ?_
        exact (qmapArg_qmapText masks hcount (List.mem_range.1 hport)).portOf_eq
    _ = List.range portCount := List.map_id _

/-- The made-up arguments are accepted, and every port gets the cores of its mask. -/
theorem parseAll_qmapText
    {portCount : Nat}
    (past : PortConfig)
    (hcount : portCount < 2 ^ 63)
    (hpkt : ∀ p < portCount, ∀ c ∈ coresOf lc (masks p), lc.isPktCore c = true)
    (hcores : ∀ p < portCount, 0 < coreCount lc (masks p)) :
    ∃ cfg, parseAll lc portCount ((List.range portCount).map (qmapText masks))
        (allocated portCount past) = some cfg ∧
      QueueMapOk portCount past cfg ∧
      ∀ p < portCount, (cfg.portPortCfg p).ppcQCnt = coreCount lc (masks p) := by
  have hperm : (((List.range portCount).map (qmapText masks)).map portOf).Perm
      (List.range portCount) := by
    rw [portOf_qmapText masks hcount]
  have hnodup := hperm.nodup_iff.2 List.nodup_range
  have hfresh := fresh_of_perm past hperm
  obtain ⟨cfg, hparse⟩ := @parseAll_some lc _ _ _ (fun arg harg => by
    obtain ⟨port, hport, rfl⟩ := List.mem_map.1 harg
    have hlt := List.mem_range.1 hport
    exact ⟨port, masks port, qmapArg_qmapText masks hcount hlt, hpkt port hlt,
      List.length_pos_iff.1 (hcores port hlt)⟩) hnodup hfresh
  refine ⟨cfg, hparse, queueMapOk_of_perm hparse hperm, fun port hport => ?_⟩
  have harg := qmapArg_qmapText masks hcount hport
  have hassigned := (parseAll_spec hparse hnodup hfresh (qmapText masks port)
    (List.mem_map_of_mem (List.mem_range.2 hport))).1
  rw [harg.portOf_eq, harg.argCores_eq] at hassigned
  exact hassigned.qCnt

theorem virtualPortsOk
    {cfg : PortConfig}
    (hmasks : DefaultMasks lc ports masks)
    (hcnt : ∀ p < ports.portGetPreInitPortCount,
      (cfg.portPortCfg p).ppcQCnt = coreCount lc (masks p)) :
    VirtualPortsOk ports cfg := by
  refine ⟨fun port hkni => ?_, fun i hi => ?_⟩
  · rw [Ports.portPreInitIsKniPort, decide_eq_true_iff] at hkni
    rw [hcnt port hkni.2, hmasks.kni port hkni.2 hkni.1]
  · have hle := dealt_le ports
    rw [Ports.dealt, Ports.ringIfGetCount] at hle
    rw [hcnt _ (by omega), hcnt _ (by omega), hmasks.pair i hi]

/-- With enough fuel both defaults have masks. -/
theorem defaultMasks_spec
    {fuel : Nat}
    (hfuel : ports.portGetPreInitPortCount + 2 * lc.slaves.length < fuel)
    (choice : QmapDefault) :
    ∃ masks, defaultMasks lc ports fuel choice = .ok masks ∧ DefaultMasks lc ports masks := by
  cases choice with
  | maxQ =>
      exact ⟨_, rfl, portHandleCmdlineOptQmapMaxq_spec lc ports⟩
  | maxC =>
      obtain ⟨masks, hrun, hmasks⟩ := portHandleCmdlineOptQmapMaxc_spec hfuel
      exact ⟨masks, by rw [defaultMasks, hrun], hmasks⟩

theorem portSetup_default
    {fuel : Nat} {opts : List (List Char × List Char)} {line : PortCmdline}
    (hopts : readOptions opts ⟨[], none⟩ = some line)
    (hargs : line.qmapArgs = [])
    (hmasks : defaultMasks lc ports fuel (line.qmapDefault.getD .maxC) = .ok masks) :
    portSetup lc ports past fuel opts =
      if tpgEthDevMax + 1 < ports.portGetPreInitPortCount then .error .overflow
      else portInterfacesInit lc ports past
        ((List.range ports.portGetPreInitPortCount).map (qmapText masks)) := by
  simp only [portSetup, hopts]
  rw [portHandleCmdline, if_neg (by simp [hargs]), hmasks]
  split <;> simp [bind, Except.bind]

/-- A default is good as long as its arguments fit. -/
theorem defaultSettles_iff
    {opts : List (List Char × List Char)} {line : PortCmdline}
    (past : PortConfig)
    (hopts : readOptions opts ⟨[], none⟩ = some line)
    (hargs : line.qmapArgs = []) :
    DefaultSettles lc ports past opts ↔ ports.portGetPreInitPortCount ≤ tpgEthDevMax + 1 := by
  constructor
  · rintro ⟨enough, hall⟩
    by_contra hmore
    rw [not_le] at hmore
    obtain ⟨masks, hmasks, -⟩ := @defaultMasks_spec lc ports
      (enough + (ports.portGetPreInitPortCount + 2 * lc.slaves.length) + 1) (by omega)
      (line.qmapDefault.getD .maxC)
    have hsetup := @portSetup_default lc ports masks past _ opts line hopts hargs hmasks
    rw [if_pos hmore] at hsetup
    rcases hall (enough + (ports.portGetPreInitPortCount + 2 * lc.slaves.length) + 1)
      (by omega) with ⟨-, hexit⟩ | ⟨cfg, hok, -, -⟩
    · rw [hsetup] at hexit
      cases hexit
    · rw [hsetup] at hok
      cases hok
  · intro hfew
    refine ⟨ports.portGetPreInitPortCount + 2 * lc.slaves.length, fun fuel hfuel => ?_⟩
    obtain ⟨masks, hmasks, hgood⟩ := defaultMasks_spec hfuel (line.qmapDefault.getD .maxC)
    rw [portSetup_default hopts hargs hmasks, if_neg (by omega), portInterfacesInit]
    rcases Nat.eq_zero_or_pos ports.portGetPreInitPortCount with hzero | hpos
    · exact Or.inl ⟨hzero, if_pos hzero⟩
    · right
      rw [tpgEthDevMax] at hfew
      obtain ⟨cfg, hparse, hok, hcnt⟩ := parseAll_qmapText past
        (hfew.trans_lt (by norm_num)) hgood.pkt hgood.some_core
      rw [if_neg hpos.ne', hparse]
      exact ⟨cfg, rfl, hok, virtualPortsOk hgood hcnt⟩

end Default

/-! ## Both ways -/

section Setup

variable {lc : Lcores} {ports : Ports} {past : PortConfig}

/-- What an accepted setup with explicit arguments has checked. -/
theorem portSetup_explicit
    {fuel : Nat} {opts : List (List Char × List Char)} {line : PortCmdline} {cfg : PortConfig}
    (hopts : readOptions opts ⟨[], none⟩ = some line)
    (hargs : line.qmapArgs ≠ [])
    (hsetup : portSetup lc ports past fuel opts = .ok cfg) :
    line.qmapArgs.length = ports.portGetPreInitPortCount ∧
      parseAll lc ports.portGetPreInitPortCount line.qmapArgs
        (allocated ports.portGetPreInitPortCount past) = some cfg := by
  simp only [portSetup, hopts] at hsetup
  rw [portHandleCmdline, if_pos hargs] at hsetup
  split at hsetup
  next =>
    cases hsetup
  next =>
    split at hsetup
    next =>
      cases hsetup
    next hlength =>
      rw [not_ne_iff] at hlength
      refine ⟨hlength, ?_⟩
      simp only [bind, Except.bind, portInterfacesInit] at hsetup
      split at hsetup
      next =>
        cases hsetup
      next =>
        split at hsetup
        next heq =>
          cases hsetup
          exact heq
        next =>
          cases hsetup

/-- Accepted arguments give good queues if and only if they name every port once, and a default does
if and only if there are at most 65 ports. -/
theorem coreQueueMap_iff
    (lc : Lcores) (ports : Ports) (past : PortConfig)
    {opts : List (List Char × List Char)} {line : PortCmdline}
    (hopts : readOptions opts ⟨[], none⟩ = some line) :
    (line.qmapArgs ≠ [] → ∀ fuel cfg, portSetup lc ports past fuel opts = .ok cfg →
      (QueueMapOk ports.portGetPreInitPortCount past cfg ↔
        (line.qmapArgs.map portOf).Perm (List.range ports.portGetPreInitPortCount))) ∧
    (line.qmapArgs = [] →
      (DefaultSettles lc ports past opts ↔
        ports.portGetPreInitPortCount ≤ tpgEthDevMax + 1)) := by
  refine ⟨fun hargs fuel cfg hsetup => ?_, defaultSettles_iff past hopts⟩
  obtain ⟨hlength, hparse⟩ := portSetup_explicit hopts hargs hsetup
  exact queueMapOk_iff hparse hlength

/-- Cores 1 to 3, with packets on 2 and 3. -/
def threeCores : Lcores where
  slaves := [1, 2, 3]
  isPktCore core := core == 2 || core == 3
  sorted := by simp
  below := by simp
  pkt_slave := by simp
  some_pkt := ⟨2, rfl⟩

/-- Zeros behind the arrays. -/
def zeroPast : PortConfig :=
  ⟨fun _ => ⟨0, 0, 0⟩, fun _ _ => 0⟩

/-- The two options `--qmap 0.4` and `--qmap 1.8`. -/
def twoQmaps : List (List Char × List Char) :=
  [("qmap".toList, "0.4".toList), ("qmap".toList, "1.8".toList)]

theorem coreQueueMap_iff_two :
    ∃ cfg, portSetup threeCores ⟨2, 0, 0⟩ zeroPast 0 twoQmaps = .ok cfg ∧
      QueueMapOk 2 zeroPast cfg := by
  have haccepted : (portSetup threeCores ⟨2, 0, 0⟩ zeroPast 0 twoQmaps).isOk = true := by
    decide +kernel
  cases hsetup : portSetup threeCores ⟨2, 0, 0⟩ zeroPast 0 twoQmaps with
  | error fault =>
      rw [hsetup] at haccepted
      cases haccepted
  | ok cfg =>
      have hiff := (coreQueueMap_iff threeCores ⟨2, 0, 0⟩ zeroPast
        (show readOptions twoQmaps ⟨[], none⟩ = some ⟨["0.4".toList, "1.8".toList], none⟩ by
          decide +kernel)).1 (by simp) 0 cfg hsetup
      exact ⟨cfg, rfl, hiff.2 (by decide +kernel)⟩

/-- With two ports the port number 2 is accepted, and port 1 gets no core. -/
theorem qmap_port_count_accepted :
    ∃ cfg, portSetup threeCores ⟨2, 0, 0⟩ zeroPast 0
        [("qmap".toList, "0.4".toList), ("qmap".toList, "2.8".toList)] = .ok cfg ∧
      ¬ QueueMapOk 2 zeroPast cfg := by
  have hopts : readOptions [("qmap".toList, "0.4".toList), ("qmap".toList, "2.8".toList)]
      ⟨[], none⟩ = some ⟨["0.4".toList, "2.8".toList], none⟩ := by
    decide +kernel
  have haccepted : (portSetup threeCores ⟨2, 0, 0⟩ zeroPast 0
      [("qmap".toList, "0.4".toList), ("qmap".toList, "2.8".toList)]).isOk = true := by
    decide +kernel
  cases hsetup : portSetup threeCores ⟨2, 0, 0⟩ zeroPast 0
      [("qmap".toList, "0.4".toList), ("qmap".toList, "2.8".toList)] with
  | error fault =>
      rw [hsetup] at haccepted
      cases haccepted
  | ok cfg =>
      obtain ⟨hlength, hparse⟩ := portSetup_explicit hopts (by simp) hsetup
      refine ⟨cfg, rfl, fun hok => ?_⟩
      have hperm := (queueMapOk_iff hparse hlength).1 hok
      revert hperm
      decide +kernel

end Setup

end PortSetup
end Warp17
