import Warp17.QueueMaps

/-!
# The default assignments of cores to ports

Without `--qmap` arguments the masks of the ports are made up (src/src/tpg_port.c): `max-q` gives
every packet core to every port, `max-c` deals the packet cores to the ports in turn.  A KNI port
takes one core only, and the two ports of a ring pair must have equally many, so `max-c` takes a
core away from the first one where it has one more.

The loops that step to the next packet core and to the next port have fuel; the abort of the ring
check is a result.

**Results**
- `nextPktCore_cycle`: the loop over the lcores goes through the packet cores in a cycle.
- `RoundInv.step`, `maxcLoop_spec`: dealing the cores, and what every port ends with.
- `ringRepair_spec`: the ring pairs become equal, without the abort.
- `portHandleCmdlineOptQmapMaxc_spec`, `portHandleCmdlineOptQmapMaxq_spec`: what the masks of the
  two defaults are like; with enough fuel `max-c` ends.
-/

namespace Warp17
namespace CoreAssignment

open QueueMaps

/-- The ports: devices that exist, and ring pairs and KNI interfaces that are asked for. -/
structure Ports where
  ethDevs : Nat
  ringIfPairs : Nat
  kniInterfaces : Nat
deriving DecidableEq, Repr

def Ports.ringIfGetCount (ports : Ports) : Nat :=
  ports.ringIfPairs * 2

def Ports.portGetPreInitPortCount (ports : Ports) : Nat :=
  ports.ethDevs + ports.ringIfGetCount + ports.kniInterfaces

def Ports.portPreInitIsKniPort (ports : Ports) (port : Nat) : Bool :=
  decide (ports.ethDevs + ports.ringIfGetCount ≤ port ∧
    port < ports.ethDevs + ports.ringIfGetCount + ports.kniInterfaces)

def Ports.portPreInitAllKniPorts (ports : Ports) : Bool :=
  (List.range ports.portGetPreInitPortCount).all ports.portPreInitIsKniPort

def Ports.portPreInitIsRingPort (ports : Ports) (port : Nat) : Bool :=
  decide (ports.ethDevs ≤ port ∧ port < ports.ethDevs + ports.ringIfGetCount)

/-- `rte_get_next_lcore(core, true, true)`, as the DPDK documents it: the next slave, from the first
one after the last. -/
def rteGetNextLcore (lc : Lcores) (core : Nat) : Nat :=
  (lc.slaves.find? (core < ·)).getD (lc.slaves.headD core)

/-- The packet cores in the order of the slaves. -/
def pktCores (lc : Lcores) : List Nat :=
  lc.slaves.filter lc.isPktCore

def cfgPktCoreCount (lc : Lcores) : Nat :=
  (pktCores lc).length

/-! ## `max-q` -/

/-- The loop over the cores for one port. -/
def maxqCores (lc : Lcores) (kni : Bool) : List Nat → BitVec 64 → BitVec 64
  | [], mask => mask
  | core :: cores, mask =>
      if lc.isPktCore core then
        if kni then portAddCoreToMask mask core
        else maxqCores lc kni cores (portAddCoreToMask mask core)
      else maxqCores lc kni cores mask

def portHandleCmdlineOptQmapMaxq (lc : Lcores) (ports : Ports) (port : Nat) : BitVec 64 :=
  maxqCores lc (ports.portPreInitIsKniPort port) lc.slaves 0#64

/-! ## `max-c` -/

/-- `while (!cfg_is_pkt_core(core)) core = rte_get_next_lcore(..)` -/
def firstPktCore (lc : Lcores) : Nat → Nat → Option Nat
  | 0, _ => none
  | fuel + 1, core =>
      if lc.isPktCore core then some core else firstPktCore lc fuel (rteGetNextLcore lc core)

/-- `do core = rte_get_next_lcore(..) while (!cfg_is_pkt_core(core))` -/
def nextPktCore (lc : Lcores) : Nat → Nat → Option Nat
  | 0, _ => none
  | fuel + 1, core =>
      if lc.isPktCore (rteGetNextLcore lc core) then some (rteGetNextLcore lc core)
      else nextPktCore lc fuel (rteGetNextLcore lc core)

/-- The masks and the counts of cores by port. -/
structure Assignment where
  pcoreMask : Nat → BitVec 64
  coresPerPort : Nat → Nat

/-- The loop to the next port: no fuel, the return when all ports are KNI, or the port. -/
def advancePort (ports : Ports) (pcoreMask : Nat → BitVec 64) :
    Nat → Nat → Option (Option Nat)
  | 0, _ => none
  | fuel + 1, port =>
      let port := (port + 1) % ports.portGetPreInitPortCount
      if ports.portPreInitAllKniPorts ∧ port = 0 then some none
      else if ports.portPreInitIsKniPort port ∧ pcoreMask port ≠ 0#64 then
        advancePort ports pcoreMask fuel port
      else some (some port)

/-- One core for the port. -/
def Assignment.add (a : Assignment) (port core : Nat) : Assignment where
  pcoreMask := Function.update a.pcoreMask port (portAddCoreToMask (a.pcoreMask port) core)
  coresPerPort := Function.update a.coresPerPort port (a.coresPerPort port + 1)

/-- The loop that deals the cores; the flag is set by the return inside the loop. -/
def maxcLoop (lc : Lcores) (ports : Ports) (fuel : Nat) :
    Nat → Nat → Nat → Assignment → Option (Bool × Assignment)
  | 0, _, _, a => some (false, a)
  | left + 1, port, core, a =>
      let a := a.add port core
      (advancePort ports a.pcoreMask fuel port).bind fun next =>
        match next with
        | none => some (true, a)
        | some port =>
            (nextPktCore lc fuel core).bind fun core => maxcLoop lc ports fuel left port core a

/-- The loop that takes the first core out of a mask. -/
def delFirstCore (lc : Lcores) (mask : BitVec 64) : BitVec 64 :=
  match lc.slaves.find? (portCoreidInMask mask) with
  | some core => portDelCoreFromMask mask core
  | none => mask

/-- The loop over the ring pairs; `none` is the abort. -/
def ringRepair (lc : Lcores) (ports : Ports) (coresPerPort : Nat → Nat) (port : Nat)
    (pcoreMask : Nat → BitVec 64) : Option (Nat → BitVec 64) :=
  if port < ports.portGetPreInitPortCount ∧ ports.portPreInitIsRingPort port then
    if coresPerPort port ≠ coresPerPort (port + 1) then
      if coresPerPort port ≠ coresPerPort (port + 1) + 1 then none
      else ringRepair lc ports coresPerPort (port + 2)
        (Function.update pcoreMask port (delFirstCore lc (pcoreMask port)))
    else ringRepair lc ports coresPerPort (port + 2) pcoreMask
  else some pcoreMask
termination_by ports.portGetPreInitPortCount - port

/-- The first ring port, or the port count. -/
def firstRingPort (ports : Ports) : Nat :=
  ((List.range ports.portGetPreInitPortCount).find? ports.portPreInitIsRingPort).getD
    ports.portGetPreInitPortCount

/-- The masks, or `none` for the abort. -/
def portHandleCmdlineOptQmapMaxc (lc : Lcores) (ports : Ports) (fuel : Nat) :
    Option (Option (Nat → BitVec 64)) :=
  let portCount := ports.portGetPreInitPortCount
  let max := if cfgPktCoreCount lc ≤ portCount then portCount else cfgPktCoreCount lc
  if portCount = 0 then some (some fun _ => 0#64)
  else
    (firstPktCore lc fuel 0).bind fun core =>
      (maxcLoop lc ports fuel max 0 core ⟨fun _ => 0#64, fun _ => 0⟩).bind fun out =>
        if out.1 then some (some out.2.pcoreMask)
        else if firstRingPort ports = portCount then some (some out.2.pcoreMask)
        else some (ringRepair lc ports out.2.coresPerPort (firstRingPort ports) out.2.pcoreMask)

/-! ## The packet cores in a cycle -/

section Cycle

variable {lc : Lcores}

theorem pktCores_ne_nil
    (lc : Lcores) :
    pktCores lc ≠ [] := by
  obtain ⟨core, hcore⟩ := lc.some_pkt
  exact List.ne_nil_of_mem (List.mem_filter.2 ⟨lc.pkt_slave core hcore, hcore⟩)

theorem cfgPktCoreCount_pos
    (lc : Lcores) :
    0 < cfgPktCoreCount lc :=
  List.length_pos_iff.2 (pktCores_ne_nil lc)

/-- The packet core number `i`, from the first one after the last. -/
def pktAt (lc : Lcores) (i : Nat) : Nat :=
  (pktCores lc).get ⟨i % (pktCores lc).length, Nat.mod_lt i (cfgPktCoreCount_pos lc)⟩

theorem pktAt_mem
    (lc : Lcores) (i : Nat) :
    pktAt lc i ∈ pktCores lc :=
  List.get_mem _ _

theorem pktAt_isPktCore
    (lc : Lcores) (i : Nat) :
    lc.isPktCore (pktAt lc i) = true :=
  (List.mem_filter.1 (pktAt_mem lc i)).2

theorem pktAt_slave
    (lc : Lcores) (i : Nat) :
    pktAt lc i ∈ lc.slaves :=
  (List.mem_filter.1 (pktAt_mem lc i)).1

/-- Different packet cores as long as the numbers stay below the count. -/
theorem pktAt_inj
    {i j : Nat}
    (hi : i < cfgPktCoreCount lc)
    (hj : j < cfgPktCoreCount lc)
    (heq : pktAt lc i = pktAt lc j) :
    i = j := by
  have hnodup : (pktCores lc).Nodup := (nodup_slaves lc).filter _
  have hmod : i % (pktCores lc).length = j % (pktCores lc).length :=
    congrArg Fin.val (hnodup.injective_get heq)
  rw [cfgPktCoreCount] at hi hj
  rwa [Nat.mod_eq_of_lt hi, Nat.mod_eq_of_lt hj] at hmod

theorem rteGetNextLcore_cons
    {a b : List Nat} {core x : Nat}
    (hs : lc.slaves = a ++ x :: b)
    (ha : ∀ y ∈ a, y ≤ core)
    (hx : core < x) :
    rteGetNextLcore lc core = x := by
  have hnone : a.find? (core < ·) = none := by
    rw [List.find?_eq_none]
    intro y hy
    simpa using ha y hy
  rw [rteGetNextLcore, hs, List.find?_append, hnone, Option.none_or,
    List.find?_cons_of_pos (by simpa using hx), Option.getD_some]

theorem rteGetNextLcore_last
    {core : Nat}
    (ha : ∀ y ∈ lc.slaves, y ≤ core) :
    rteGetNextLcore lc core = lc.slaves.headD core := by
  have hnone : lc.slaves.find? (core < ·) = none := by
    rw [List.find?_eq_none]
    intro y hy
    simpa using ha y hy
  rw [rteGetNextLcore, hnone, Option.getD_none]

/-- By induction on the slaves that follow; one of them is a packet core. -/
theorem nextPktCore_after
    {a b : List Nat} {core c fuel : Nat}
    (hs : lc.slaves = a ++ b)
    (ha : ∀ y ∈ a, y ≤ core)
    (hb : ∀ y ∈ b, core < y)
    (hfind : b.find? lc.isPktCore = some c)
    (hfuel : b.length ≤ fuel) :
    nextPktCore lc fuel core = some c := by
  induction b generalizing a core fuel with
  | nil =>
      cases hfind
  | cons x b ih =>
      have hnext := rteGetNextLcore_cons hs ha (hb x (by simp))
      have hsorted := lc.sorted
      rw [hs, List.pairwise_append, List.pairwise_cons] at hsorted
      obtain ⟨fuel, rfl⟩ : ∃ f, fuel = f + 1 := ⟨fuel - 1, by
        rw [List.length_cons] at hfuel
        omega⟩
      rw [nextPktCore, hnext]
      by_cases hx : lc.isPktCore x = true
      · rw [List.find?_cons_of_pos hx] at hfind
        rw [if_pos hx, hfind]
      · rw [List.find?_cons_of_neg hx] at hfind
        rw [if_neg hx]
        refine @ih (a ++ [x]) x fuel ?_ ?_ hsorted.2.1.1 hfind ?_
        · rw [hs, List.append_assoc, List.singleton_append]
        · intro y hy
          rcases List.mem_append.1 hy with hy | hy
          · exact (hsorted.2.2 y hy x (by simp)).le
          · rw [List.mem_singleton.1 hy]
        · rw [List.length_cons] at hfuel
          omega

/-- By induction on the slaves that follow, none of them a packet core: then the first one. -/
theorem nextPktCore_wrap
    {a b : List Nat} {core c fuel : Nat}
    (hs : lc.slaves = a ++ b)
    (ha : ∀ y ∈ a, y ≤ core)
    (hb : ∀ y ∈ b, core < y)
    (hnone : b.find? lc.isPktCore = none)
    (hfirst : lc.slaves.find? lc.isPktCore = some c)
    (hfuel : b.length + lc.slaves.length ≤ fuel) :
    nextPktCore lc fuel core = some c := by
  induction b generalizing a core fuel with
  | nil =>
      rw [List.append_nil] at hs
      have hnext := @rteGetNextLcore_last lc core (by rw [hs]; exact ha)
      obtain ⟨x, t, hx⟩ : ∃ x t, lc.slaves = x :: t := by
        refine List.exists_cons_of_ne_nil ?_
        rintro hnil
        rw [hnil] at hfirst
        cases hfirst
      have hsorted := lc.sorted
      rw [hx, List.pairwise_cons] at hsorted
      rw [hx, List.length_cons, List.length_nil] at hfuel
      obtain ⟨fuel, rfl⟩ : ∃ f, fuel = f + 1 := ⟨fuel - 1, by omega⟩
      rw [nextPktCore, hnext, hx, List.headD_cons]
      rw [hx] at hfirst
      by_cases hpkt : lc.isPktCore x = true
      · rw [List.find?_cons_of_pos hpkt] at hfirst
        rw [if_pos hpkt, hfirst]
      · rw [List.find?_cons_of_neg hpkt] at hfirst
        rw [if_neg hpkt]
        exact @nextPktCore_after lc [x] t x c fuel hx (by simp) hsorted.1 hfirst (by omega)
  | cons x b ih =>
      have hnext := rteGetNextLcore_cons hs ha (hb x (by simp))
      have hsorted := lc.sorted
      rw [hs, List.pairwise_append, List.pairwise_cons] at hsorted
      obtain ⟨fuel, rfl⟩ : ∃ f, fuel = f + 1 := ⟨fuel - 1, by
        rw [List.length_cons] at hfuel
        omega⟩
      have hx : ¬ lc.isPktCore x = true := List.find?_eq_none.1 hnone x (by simp)
      rw [List.find?_cons_of_neg hx] at hnone
      rw [nextPktCore, hnext, if_neg hx]
      refine @ih (a ++ [x]) x fuel ?_ ?_ hsorted.2.1.1 hnone ?_
      · rw [hs, List.append_assoc, List.singleton_append]
      · intro y hy
        rcases List.mem_append.1 hy with hy | hy
        · exact (hsorted.2.2 y hy x (by simp)).le
        · rw [List.mem_singleton.1 hy]
      · rw [List.length_cons] at hfuel
        omega

/-- Where a packet core stands among the slaves, and which packet cores follow it. -/
theorem exists_split_pktAt
    (lc : Lcores) (i : Nat) :
    ∃ a b, lc.slaves = a ++ b ∧ (∀ y ∈ a, y ≤ pktAt lc i) ∧ (∀ y ∈ b, pktAt lc i < y) ∧
      b.filter lc.isPktCore = (pktCores lc).drop (i % (pktCores lc).length + 1) := by
  have hlt := Nat.mod_lt i (cfgPktCoreCount_pos lc)
  have hdrop : (pktCores lc).drop (i % (pktCores lc).length) =
      pktAt lc i :: (pktCores lc).drop (i % (pktCores lc).length + 1) :=
    List.drop_eq_getElem_cons hlt
  have hsplit : lc.slaves.filter lc.isPktCore =
      (pktCores lc).take (i % (pktCores lc).length) ++
        pktAt lc i :: (pktCores lc).drop (i % (pktCores lc).length + 1) := by
    rw [← hdrop, List.take_append_drop]
    rfl
  obtain ⟨a, r, hs, -, hr⟩ := List.filter_eq_append_iff.1 hsplit
  obtain ⟨m, b, rfl, -, -, hb⟩ := List.filter_eq_cons_iff.1 hr
  have hs' : lc.slaves = (a ++ m ++ [pktAt lc i]) ++ b := by
    rw [hs]
    simp
  have hsorted := lc.sorted
  rw [hs', List.pairwise_append, List.pairwise_append] at hsorted
  refine ⟨_, b, hs', ?_, fun y hy => hsorted.2.2 _ (by simp) y hy, hb⟩
  intro y hy
  rcases List.mem_append.1 hy with hy | hy
  · exact (hsorted.1.2.2 y hy _ (by simp)).le
  · rw [List.mem_singleton.1 hy]

theorem find?_slaves
    (lc : Lcores) :
    lc.slaves.find? lc.isPktCore = some (pktAt lc 0) := by
  have hpos := cfgPktCoreCount_pos lc
  rw [← List.head?_filter, pktAt]
  simp only [Nat.zero_mod]
  exact List.head?_eq_getElem? .. ▸ List.getElem?_eq_getElem hpos

/-- From one packet core to the next one, from the last to the first. -/
theorem nextPktCore_cycle
    {i fuel : Nat}
    (hfuel : 2 * lc.slaves.length ≤ fuel) :
    nextPktCore lc fuel (pktAt lc i) = some (pktAt lc (i + 1)) := by
  obtain ⟨a, b, hs, ha, hb, hrest⟩ := exists_split_pktAt lc i
  have hlength := congrArg List.length hs
  have hpos := cfgPktCoreCount_pos lc
  have hlt := Nat.mod_lt i hpos
  rw [List.length_append] at hlength
  rw [cfgPktCoreCount] at hpos hlt
  have hfind := List.head?_filter (p := lc.isPktCore) (l := b)
  rw [hrest, List.head?_drop] at hfind
  rcases Nat.lt_or_ge (i % (pktCores lc).length + 1) (pktCores lc).length with hmore | hlast
  · have hsucc : (i + 1) % (pktCores lc).length = i % (pktCores lc).length + 1 := by
      rw [Nat.add_mod, Nat.mod_eq_of_lt (show 1 < (pktCores lc).length by omega),
        Nat.mod_eq_of_lt hmore]
    have hc : b.find? lc.isPktCore = some (pktAt lc (i + 1)) := by
      rw [← hfind, List.getElem?_eq_getElem hmore, pktAt]
      simp only [hsucc, List.get_eq_getElem]
    exact nextPktCore_after hs ha hb hc (by omega)
  · have hzero : (i + 1) % (pktCores lc).length = 0 := by
      have hone : i % (pktCores lc).length + 1 = (pktCores lc).length := by
        omega
      rw [← Nat.mod_add_mod, hone, Nat.mod_self]
    have hnone : b.find? lc.isPktCore = none := by
      rw [← hfind, List.getElem?_eq_none hlast]
    have hfirst : pktAt lc (i + 1) = pktAt lc 0 := by
      simp only [pktAt, hzero, Nat.zero_mod]
    rw [hfirst]
    exact nextPktCore_wrap hs ha hb hnone (find?_slaves lc) (by omega)

theorem firstPktCore_succ
    (lc : Lcores) (fuel core : Nat) :
    firstPktCore lc (fuel + 1) core =
      if lc.isPktCore core then some core else nextPktCore lc fuel core := by
  induction fuel generalizing core with
  | zero =>
      rfl
  | succ fuel ih =>
      rw [firstPktCore, nextPktCore, ih]

/-- The first loop ends at the first packet core. -/
theorem firstPktCore_zero
    {fuel : Nat}
    (hfuel : lc.slaves.length < fuel) :
    firstPktCore lc fuel 0 = some (pktAt lc 0) := by
  have hfirst := find?_slaves lc
  obtain ⟨fuel, rfl⟩ : ∃ f, fuel = f + 1 := ⟨fuel - 1, by omega⟩
  have hsorted := lc.sorted
  rw [firstPktCore_succ]
  cases hslaves : lc.slaves with
  | nil =>
      rw [hslaves] at hfirst
      cases hfirst
  | cons x t =>
      rw [hslaves, List.pairwise_cons] at hsorted
      rw [hslaves, List.length_cons] at hfuel
      rw [hslaves] at hfirst
      by_cases hzero : lc.isPktCore 0 = true
      · -- core 0 is a slave, and the first one
        have hmem := lc.pkt_slave 0 hzero
        rw [hslaves, List.mem_cons] at hmem
        have hx : x = 0 := by
          rcases hmem with h | h
          · exact h.symm
          · exact absurd (hsorted.1 0 h) (Nat.not_lt_zero x)
        rw [hx, List.find?_cons_of_pos hzero] at hfirst
        rw [if_pos hzero, hfirst]
      · rw [if_neg hzero]
        rcases Nat.eq_zero_or_pos x with rfl | hx
        · rw [List.find?_cons_of_neg hzero] at hfirst
          exact @nextPktCore_after lc [0] t 0 _ fuel hslaves (by simp) hsorted.1 hfirst (by omega)
        · refine @nextPktCore_after lc [] (x :: t) 0 _ fuel hslaves (by simp) ?_ hfirst
            (by rw [List.length_cons]; omega)
          intro y hy
          rcases List.mem_cons.1 hy with rfl | hy
          · exact hx
          · exact hx.trans (hsorted.1 y hy)

end Cycle

/-! ## Counting the cores of a mask -/

section Counting

variable {lc : Lcores} {mask : BitVec 64} {core : Nat}

/-- The number of slaves in the mask. -/
def coreCount (lc : Lcores) (mask : BitVec 64) : Nat :=
  (coresOf lc mask).length

theorem mem_coresOf
    {c : Nat} :
    c ∈ coresOf lc mask ↔ c ∈ lc.slaves ∧ portCoreidInMask mask c = true :=
  List.mem_filter

/-- One more element passes a filter that also lets `x` through. -/
theorem length_filter_or
    {l : List Nat} {p q : Nat → Bool} {x : Nat}
    (hnodup : l.Nodup)
    (hx : x ∈ l)
    (hpx : p x = false)
    (hq : ∀ c ∈ l, q c = (p c || decide (c = x))) :
    (l.filter q).length = (l.filter p).length + 1 := by
  induction l with
  | nil =>
      cases hx
  | cons y l ih =>
      obtain ⟨hy, hnodup⟩ := List.nodup_cons.1 hnodup
      have hqy := hq y (by simp)
      rcases List.mem_cons.1 hx with rfl | hx
      · have hsame : l.filter q = l.filter p := by
          refine List.filter_congr fun c hc => ?_
          have hne : c ≠ x := by
            rintro rfl
            exact hy hc
          rw [hq c (by simp [hc]), decide_eq_false hne, Bool.or_false]
        rw [decide_eq_true rfl, Bool.or_true] at hqy
        rw [List.filter_cons_of_pos hqy, List.filter_cons_of_neg (by simp [hpx]), hsame,
          List.length_cons]
      · have hne : y ≠ x := by
          rintro rfl
          exact hy hx
        have hrest := ih hnodup hx (fun c hc => hq c (by simp [hc]))
        rw [decide_eq_false hne, Bool.or_false] at hqy
        by_cases hpy : p y = true
        · rw [List.filter_cons_of_pos (by rw [hqy]; exact hpy), List.filter_cons_of_pos hpy,
            List.length_cons, List.length_cons, hrest]
        · rw [List.filter_cons_of_neg (by rw [hqy]; exact hpy), List.filter_cons_of_neg hpy, hrest]

theorem coreCount_add
    (hcore : core ∈ lc.slaves)
    (hnew : portCoreidInMask mask core = false) :
    coreCount lc (portAddCoreToMask mask core) = coreCount lc mask + 1 :=
  length_filter_or (nodup_slaves lc) hcore hnew fun c hc =>
    portCoreidInMask_add (lc.below core hcore) (lc.below c hc)

theorem coreCount_del
    (hcore : core ∈ lc.slaves)
    (hin : portCoreidInMask mask core = true) :
    coreCount lc (portDelCoreFromMask mask core) + 1 = coreCount lc mask := by
  refine (length_filter_or (nodup_slaves lc) hcore ?_ fun c hc => ?_).symm
  · rw [portCoreidInMask_del (lc.below core hcore) (lc.below core hcore)]
    simp
  · rw [portCoreidInMask_del (lc.below core hcore) (lc.below c hc)]
    by_cases hc : c = core
    · rw [hc, hin]
      simp
    · simp [hc]

theorem coreCount_zero
    (lc : Lcores) :
    coreCount lc 0#64 = 0 := by
  rw [coreCount, List.length_eq_zero_iff, coresOf, List.filter_eq_nil_iff]
  intro c hc
  rw [portCoreidInMask_zero]
  simp

theorem ne_zero_of_coreCount
    (hpos : 0 < coreCount lc mask) :
    mask ≠ 0#64 := by
  rintro rfl
  rw [coreCount_zero] at hpos
  exact absurd hpos (lt_irrefl 0)

end Counting

/-! ## Dealing the cores -/

section Dealing

variable {lc : Lcores} {ports : Ports} {a : Assignment} {port : Nat}

/-- The ports in front of the KNI ports. -/
def Ports.dealt (ports : Ports) : Nat :=
  ports.ethDevs + ports.ringIfGetCount

/-- What holds after `i` turns: the first round is not over, or it is and KNI ports are skipped. -/
structure RoundInv (lc : Lcores) (ports : Ports) (i port : Nat) (a : Assignment) : Prop where
  counted : ∀ p < ports.portGetPreInitPortCount,
    coreCount lc (a.pcoreMask p) = a.coresPerPort p
  used : ∀ p c, c ∈ coresOf lc (a.pcoreMask p) → ∃ j < i, c = pktAt lc j
  first : i < ports.portGetPreInitPortCount → port = i ∧
    (∀ p < ports.portGetPreInitPortCount, a.coresPerPort p = if p < i then 1 else 0) ∧
    ∀ p, i ≤ p → a.pcoreMask p = 0#64
  later : ports.portGetPreInitPortCount ≤ i → port < ports.dealt ∧
    ∃ n, 1 ≤ n ∧ ∀ p < ports.portGetPreInitPortCount, a.coresPerPort p =
      if ports.dealt ≤ p then 1 else if p < port then n + 1 else n

/-- What every port ends with. -/
structure Dealt (lc : Lcores) (ports : Ports) (a : Assignment) : Prop where
  counted : ∀ p < ports.portGetPreInitPortCount,
    coreCount lc (a.pcoreMask p) = a.coresPerPort p
  pkt : ∀ p c, c ∈ coresOf lc (a.pcoreMask p) → lc.isPktCore c = true
  some_core : ∀ p < ports.portGetPreInitPortCount, 0 < a.coresPerPort p
  kni : ∀ p < ports.portGetPreInitPortCount, ports.dealt ≤ p → a.coresPerPort p = 1
  pair : ∀ p, p + 1 < ports.dealt → a.coresPerPort p = a.coresPerPort (p + 1) ∨
    a.coresPerPort p = a.coresPerPort (p + 1) + 1

theorem dealt_le
    (ports : Ports) :
    ports.dealt ≤ ports.portGetPreInitPortCount :=
  Nat.le_add_right _ _

theorem isKniPort_iff
    (hport : port < ports.portGetPreInitPortCount) :
    ports.portPreInitIsKniPort port = true ↔ ports.dealt ≤ port := by
  rw [Ports.portPreInitIsKniPort, decide_eq_true_iff]
  exact ⟨fun h => h.1, fun h => ⟨h, hport⟩⟩

theorem allKniPorts_iff
    (hpos : 0 < ports.portGetPreInitPortCount) :
    ports.portPreInitAllKniPorts = true ↔ ports.dealt = 0 := by
  rw [Ports.portPreInitAllKniPorts, List.all_eq_true]
  constructor
  · intro hall
    have hzero := (isKniPort_iff hpos).1 (hall 0 (List.mem_range.2 hpos))
    omega
  · intro hzero p hp
    exact (isKniPort_iff (List.mem_range.1 hp)).2 (by omega)

/-- Inside the first round the next port has no cores yet. -/
theorem advancePort_first
    {fuel : Nat} {masks : Nat → BitVec 64}
    (hnext : port + 1 < ports.portGetPreInitPortCount)
    (hfresh : masks (port + 1) = 0#64)
    (hfuel : 0 < fuel) :
    advancePort ports masks fuel port = some (some (port + 1)) := by
  obtain ⟨fuel, rfl⟩ : ∃ f, fuel = f + 1 := ⟨fuel - 1, by omega⟩
  rw [advancePort]
  simp only [Nat.mod_eq_of_lt hnext]
  rw [if_neg (by simp), if_neg (fun h => h.2 hfresh)]

/-- Inside a later round the next port is not a KNI port. -/
theorem advancePort_later
    {fuel : Nat} {masks : Nat → BitVec 64}
    (hnext : port + 1 < ports.dealt)
    (hfuel : 0 < fuel) :
    advancePort ports masks fuel port = some (some (port + 1)) := by
  have hlt := hnext.trans_le (dealt_le ports)
  obtain ⟨fuel, rfl⟩ : ∃ f, fuel = f + 1 := ⟨fuel - 1, by omega⟩
  rw [advancePort]
  simp only [Nat.mod_eq_of_lt hlt, isKniPort_iff hlt]
  rw [if_neg (by simp), if_neg (fun h => by omega)]

/-- With only KNI ports the first round is the last one. -/
theorem advancePort_return
    {fuel : Nat} {masks : Nat → BitVec 64}
    (hlast : port + 1 = ports.portGetPreInitPortCount)
    (hall : ports.dealt = 0)
    (hfuel : 0 < fuel) :
    advancePort ports masks fuel port = some none := by
  obtain ⟨fuel, rfl⟩ : ∃ f, fuel = f + 1 := ⟨fuel - 1, by omega⟩
  rw [advancePort]
  simp only [hlast, Nat.mod_self, and_true]
  rw [if_pos ((allKniPorts_iff (by omega)).2 hall)]

/-- At the end of a round the KNI ports are skipped, by induction on the ports that are left. -/
theorem advancePort_wrap
    {masks : Nat → BitVec 64}
    (left : Nat)
    {fuel : Nat}
    (hdealt : 0 < ports.dealt)
    (hport : ports.dealt ≤ port + 1)
    (hleft : port + 1 + left = ports.portGetPreInitPortCount)
    (hmasks : ∀ p, ports.dealt ≤ p → p < ports.portGetPreInitPortCount → masks p ≠ 0#64)
    (hfuel : left < fuel) :
    advancePort ports masks fuel port = some (some 0) := by
  have hpos := hdealt.trans_le (dealt_le ports)
  have hnotall : ¬ ports.portPreInitAllKniPorts = true := by
    rw [allKniPorts_iff hpos]
    omega
  induction left generalizing port fuel with
  | zero =>
      obtain ⟨fuel, rfl⟩ : ∃ f, fuel = f + 1 := ⟨fuel - 1, by omega⟩
      rw [advancePort]
      simp only [show port + 1 = ports.portGetPreInitPortCount by omega, Nat.mod_self]
      rw [if_neg (fun h => hnotall h.1), if_neg]
      rw [isKniPort_iff hpos]
      omega
  | succ left ih =>
      have hlt : port + 1 < ports.portGetPreInitPortCount := by
        omega
      obtain ⟨fuel, rfl⟩ : ∃ f, fuel = f + 1 := ⟨fuel - 1, by omega⟩
      rw [advancePort]
      simp only [Nat.mod_eq_of_lt hlt]
      rw [if_neg (fun h => hnotall h.1),
        if_pos ⟨(isKniPort_iff hlt).2 hport, hmasks _ hport hlt⟩]
      exact ih (by omega) (by omega) (by omega)

/-- `max` in `port_handle_cmdline_opt_qmap_maxc`. -/
def maxTurns (lc : Lcores) (ports : Ports) : Nat :=
  if cfgPktCoreCount lc ≤ ports.portGetPreInitPortCount then ports.portGetPreInitPortCount
  else cfgPktCoreCount lc

theorem RoundInv.port_lt
    {i : Nat}
    (hinv : RoundInv lc ports i port a) :
    port < ports.portGetPreInitPortCount := by
  rcases Nat.lt_or_ge i ports.portGetPreInitPortCount with hlt | hge
  · rw [(hinv.first hlt).1]
    exact hlt
  · exact (hinv.later hge).1.trans_le (dealt_le ports)

/-- The core of a turn is new to the port. -/
theorem RoundInv.not_in_mask
    {i : Nat}
    (hinv : RoundInv lc ports i port a)
    (hi : i < maxTurns lc ports) :
    portCoreidInMask (a.pcoreMask port) (pktAt lc i) = false := by
  rcases Nat.lt_or_ge i ports.portGetPreInitPortCount with hlt | hge
  · obtain ⟨rfl, -, hfresh⟩ := hinv.first hlt
    rw [hfresh port le_rfl, portCoreidInMask_zero]
  · -- more turns than ports: no packet core comes twice
    rw [maxTurns] at hi
    split at hi
    next =>
      omega
    next =>
      rw [Bool.eq_false_iff]
      intro hin
      obtain ⟨j, hj, heq⟩ := hinv.used port _ (mem_coresOf.2 ⟨pktAt_slave lc i, hin⟩)
      have := pktAt_inj hi (hj.trans hi) heq
      omega

theorem add_coresPerPort
    (a : Assignment) (port core p : Nat) :
    (a.add port core).coresPerPort p =
      if p = port then a.coresPerPort p + 1 else a.coresPerPort p := by
  simp only [Assignment.add, Function.update_apply]
  split
  next heq => rw [heq]
  next => rfl

theorem add_pcoreMask_self
    (a : Assignment) (port core : Nat) :
    (a.add port core).pcoreMask port = portAddCoreToMask (a.pcoreMask port) core := by
  simp [Assignment.add]

theorem add_pcoreMask_of_ne
    {p : Nat}
    (a : Assignment) (core : Nat)
    (hp : p ≠ port) :
    (a.add port core).pcoreMask p = a.pcoreMask p := by
  simp [Assignment.add, hp]

/-- The masks after a turn, in both rounds. -/
theorem RoundInv.add
    {i : Nat}
    (hinv : RoundInv lc ports i port a)
    (hi : i < maxTurns lc ports) :
    (∀ p < ports.portGetPreInitPortCount,
      coreCount lc ((a.add port (pktAt lc i)).pcoreMask p) =
        (a.add port (pktAt lc i)).coresPerPort p) ∧
    ∀ p c, c ∈ coresOf lc ((a.add port (pktAt lc i)).pcoreMask p) →
      ∃ j < i + 1, c = pktAt lc j := by
  refine ⟨fun p hp => ?_, fun p c hc => ?_⟩
  · rcases eq_or_ne p port with rfl | hne
    · rw [add_coresPerPort, if_pos rfl, add_pcoreMask_self,
        coreCount_add (pktAt_slave lc i) (hinv.not_in_mask hi), hinv.counted p hp]
    · rw [add_coresPerPort, if_neg hne, add_pcoreMask_of_ne _ _ hne, hinv.counted p hp]
  · rcases eq_or_ne p port with rfl | hne
    · have hslave := (mem_coresOf.1 hc).1
      rw [add_pcoreMask_self, mem_coresOf,
        portCoreidInMask_add (lc.below _ (pktAt_slave lc i)) (lc.below c hslave),
        Bool.or_eq_true, decide_eq_true_iff] at hc
      rcases hc.2 with hin | rfl
      · obtain ⟨j, hj, heq⟩ := hinv.used p c (mem_coresOf.2 ⟨hc.1, hin⟩)
        exact ⟨j, by omega, heq⟩
      · exact ⟨i, by omega, rfl⟩
    · rw [add_pcoreMask_of_ne _ _ hne] at hc
      obtain ⟨j, hj, heq⟩ := hinv.used p c hc
      exact ⟨j, by omega, heq⟩

/-- One turn: the loop returns with all cores dealt, or goes on with the next port. -/
theorem RoundInv.step
    {i fuel : Nat}
    (hinv : RoundInv lc ports i port a)
    (hi : i < maxTurns lc ports)
    (hfuel : ports.portGetPreInitPortCount < fuel) :
    (ports.dealt = 0 ∧ Dealt lc ports (a.add port (pktAt lc i)) ∧
      advancePort ports (a.add port (pktAt lc i)).pcoreMask fuel port = some none) ∨
    ∃ port', RoundInv lc ports (i + 1) port' (a.add port (pktAt lc i)) ∧
      advancePort ports (a.add port (pktAt lc i)).pcoreMask fuel port = some (some port') := by
  obtain ⟨hcounted, hused⟩ := hinv.add hi
  have hport := hinv.port_lt
  have hle := dealt_le ports
  have hmasks : (∀ p, ports.dealt ≤ p → p < ports.portGetPreInitPortCount →
      (a.add port (pktAt lc i)).coresPerPort p = 1) →
      ∀ p, ports.dealt ≤ p → p < ports.portGetPreInitPortCount →
        (a.add port (pktAt lc i)).pcoreMask p ≠ 0#64 := by
    intro hone p hge hlt
    refine @ne_zero_of_coreCount lc _ ?_
    rw [hcounted p hlt, hone p hge hlt]
    exact Nat.one_pos
  rcases Nat.lt_or_ge i ports.portGetPreInitPortCount with hlt | hge
  · -- the first round
    obtain ⟨rfl, hcores, hfresh⟩ := hinv.first hlt
    have hcores' : ∀ p < ports.portGetPreInitPortCount,
        (a.add port (pktAt lc port)).coresPerPort p = if p < port + 1 then 1 else 0 := by
      intro p hp
      rw [add_coresPerPort, hcores p hp]
      split_ifs <;> omega
    rcases Nat.lt_or_ge (port + 1) ports.portGetPreInitPortCount with hnext | hlast
    · right
      have hfresh' : ∀ p, port + 1 ≤ p → (a.add port (pktAt lc port)).pcoreMask p = 0#64 := by
        intro p hp
        rw [add_pcoreMask_of_ne _ _ (show p ≠ port by omega), hfresh p (by omega)]
      refine ⟨port + 1, ⟨hcounted, hused, fun _ => ⟨rfl, hcores', hfresh'⟩, fun h => ?_⟩,
        advancePort_first hnext (hfresh' _ le_rfl) (by omega)⟩
      omega
    · have hones : ∀ p < ports.portGetPreInitPortCount,
          (a.add port (pktAt lc port)).coresPerPort p = 1 := by
        intro p hp
        rw [hcores' p hp, if_pos (by omega)]
      rcases Nat.eq_zero_or_pos ports.dealt with hall | hdealt
      · left
        refine ⟨hall, ⟨hcounted, ?_, ?_, ?_, ?_⟩, advancePort_return (by omega) hall (by omega)⟩
        · intro p c hc
          obtain ⟨j, -, rfl⟩ := hused p c hc
          exact pktAt_isPktCore lc j
        · intro p hp
          rw [hones p hp]
          exact Nat.one_pos
        · exact fun p hp _ => hones p hp
        · intro p hp
          omega
      · right
        refine ⟨0, ⟨hcounted, hused, fun h => ?_, fun _ => ⟨hdealt, 1, le_rfl, ?_⟩⟩,
          advancePort_wrap 0 hdealt (by omega) (by omega)
            (hmasks fun p _ hp => hones p hp) (by omega)⟩
        · omega
        · intro p hp
          rw [hones p hp]
          split <;> rfl
  · -- a later round
    right
    obtain ⟨hdealt, n, hn, hcores⟩ := hinv.later hge
    have hcores' : ∀ p < ports.portGetPreInitPortCount,
        (a.add port (pktAt lc i)).coresPerPort p =
          if ports.dealt ≤ p then 1 else if p < port + 1 then n + 1 else n := by
      intro p hp
      rw [add_coresPerPort, hcores p hp]
      split_ifs <;> omega
    rcases Nat.lt_or_ge (port + 1) ports.dealt with hnext | hlast
    · refine ⟨port + 1, ⟨hcounted, hused, fun h => ?_, fun _ => ⟨hnext, n, hn, hcores'⟩⟩,
        advancePort_later hnext (by omega)⟩
      omega
    · refine ⟨0, ⟨hcounted, hused, fun h => ?_, fun _ => ⟨by omega, n + 1, by omega, ?_⟩⟩,
        advancePort_wrap (ports.portGetPreInitPortCount - (port + 1)) (by omega) hlast (by omega)
          (hmasks fun p hp hlt => by rw [hcores' p hlt, if_pos hp]) (by omega)⟩
      · omega
      · intro p hp
        rw [hcores' p hp]
        split
        · rfl
        · rw [if_pos (by omega), if_neg (by omega)]

/-- After the last turn every port has its cores. -/
theorem RoundInv.dealt
    {i : Nat}
    (hinv : RoundInv lc ports i port a)
    (hi : ports.portGetPreInitPortCount ≤ i) :
    Dealt lc ports a := by
  obtain ⟨-, n, hn, hcores⟩ := hinv.later hi
  have hle := dealt_le ports
  refine ⟨hinv.counted, ?_, ?_, ?_, ?_⟩
  · intro p c hc
    obtain ⟨j, -, rfl⟩ := hinv.used p c hc
    exact pktAt_isPktCore lc j
  · intro p hp
    rw [hcores p hp]
    split
    · exact Nat.one_pos
    · split <;> omega
  · intro p hp hkni
    rw [hcores p hp, if_pos hkni]
  · intro p hp
    rw [hcores p (by omega), hcores (p + 1) (by omega)]
    split_ifs <;> omega

/-- By induction on the turns that are left. -/
theorem maxcLoop_spec
    {fuel : Nat}
    (left : Nat)
    {i : Nat}
    (hinv : RoundInv lc ports i port a)
    (hturns : i + left = maxTurns lc ports)
    (hfuel : ports.portGetPreInitPortCount + 2 * lc.slaves.length < fuel) :
    ∃ early a', maxcLoop lc ports fuel left port (pktAt lc i) a = some (early, a') ∧
      Dealt lc ports a' ∧ (early = true → ports.dealt = 0) := by
  induction left generalizing i port a with
  | zero =>
      refine ⟨false, a, rfl, hinv.dealt ?_, by simp⟩
      rw [Nat.add_zero] at hturns
      rw [hturns, maxTurns]
      split <;> omega
  | succ left ih =>
      rw [maxcLoop]
      rcases @RoundInv.step lc ports a port i fuel hinv (by omega) (by omega) with
        ⟨hall, hdealt, hnext⟩ |
        ⟨port', hinv', hnext⟩
      · exact ⟨true, _, by simp only [hnext, Option.bind_some], hdealt, fun _ => hall⟩
      · simp only [hnext, Option.bind_some,
          @nextPktCore_cycle lc i fuel (by omega)]
        exact ih hinv' (by omega)

end Dealing

/-! ## The ring pairs -/

section RingPairs

variable {lc : Lcores} {ports : Ports} {a : Assignment}

/-- What the masks of a default are like. -/
structure DefaultMasks (lc : Lcores) (ports : Ports) (masks : Nat → BitVec 64) : Prop where
  pkt : ∀ p < ports.portGetPreInitPortCount, ∀ c ∈ coresOf lc (masks p), lc.isPktCore c = true
  some_core : ∀ p < ports.portGetPreInitPortCount, 0 < coreCount lc (masks p)
  kni : ∀ p < ports.portGetPreInitPortCount, ports.dealt ≤ p → coreCount lc (masks p) = 1
  pair : ∀ i < ports.ringIfPairs,
    coreCount lc (masks (ports.ethDevs + 2 * i)) = coreCount lc (masks (ports.ethDevs + 2 * i + 1))

/-- What holds when the first `j` ring pairs are repaired. -/
structure PairInv (lc : Lcores) (ports : Ports) (a : Assignment) (j : Nat)
    (masks : Nat → BitVec 64) : Prop where
  rest : ∀ p, ports.ethDevs + 2 * j ≤ p → masks p = a.pcoreMask p
  sub : ∀ p c, c ∈ coresOf lc (masks p) → c ∈ coresOf lc (a.pcoreMask p)
  some_core : ∀ p < ports.portGetPreInitPortCount, 0 < coreCount lc (masks p)
  pair : ∀ i < j, coreCount lc (masks (ports.ethDevs + 2 * i)) =
    coreCount lc (masks (ports.ethDevs + 2 * i + 1))

/-- One core less. -/
theorem delFirstCore_spec
    {mask : BitVec 64}
    (hpos : 0 < coreCount lc mask) :
    coreCount lc (delFirstCore lc mask) + 1 = coreCount lc mask ∧
      ∀ c, c ∈ coresOf lc (delFirstCore lc mask) → c ∈ coresOf lc mask := by
  obtain ⟨core, hfind⟩ : ∃ core, lc.slaves.find? (portCoreidInMask mask) = some core := by
    rw [← Option.isSome_iff_exists, List.find?_isSome]
    obtain ⟨c, hc⟩ := List.exists_mem_of_length_pos hpos
    exact ⟨c, mem_coresOf.1 hc⟩
  have hslave := List.mem_of_find?_eq_some hfind
  have hin := List.find?_some hfind
  rw [delFirstCore, hfind]
  refine ⟨coreCount_del hslave hin, fun c hc => ?_⟩
  rw [mem_coresOf] at hc ⊢
  have hkept := hc.2
  rw [portCoreidInMask_del (lc.below core hslave) (lc.below c hc.1), Bool.and_eq_true] at hkept
  exact ⟨hc.1, hkept.1⟩

theorem isRingPort_iff
    {port : Nat} :
    (port < ports.portGetPreInitPortCount ∧ ports.portPreInitIsRingPort port = true) ↔
      ports.ethDevs ≤ port ∧ port < ports.dealt := by
  rw [Ports.portPreInitIsRingPort, decide_eq_true_iff]
  exact ⟨fun h => h.2, fun h => ⟨h.2.trans_le (dealt_le ports), h⟩⟩

/-- One pair: equal already, or after one core is taken from its first port. -/
theorem PairInv.step
    {j : Nat} {masks : Nat → BitVec 64}
    (hdealt : Dealt lc ports a)
    (hinv : PairInv lc ports a j masks)
    (hj : j < ports.ringIfPairs) :
    (a.coresPerPort (ports.ethDevs + 2 * j) = a.coresPerPort (ports.ethDevs + 2 * j + 1) ∧
      PairInv lc ports a (j + 1) masks) ∨
    (a.coresPerPort (ports.ethDevs + 2 * j) = a.coresPerPort (ports.ethDevs + 2 * j + 1) + 1 ∧
      PairInv lc ports a (j + 1) (Function.update masks (ports.ethDevs + 2 * j)
        (delFirstCore lc (masks (ports.ethDevs + 2 * j))))) := by
  have hpair : ports.ethDevs + 2 * j + 1 < ports.dealt := by
    rw [Ports.dealt, Ports.ringIfGetCount]
    omega
  have hle := dealt_le ports
  have hfirst := hdealt.counted (ports.ethDevs + 2 * j) (by omega)
  have hsecond := hdealt.counted (ports.ethDevs + 2 * j + 1) (by omega)
  rw [← hinv.rest _ le_rfl] at hfirst
  rw [← hinv.rest _ (by omega)] at hsecond
  rcases hdealt.pair _ hpair with heq | hmore
  · refine Or.inl ⟨heq, fun p hp => hinv.rest p (by omega), hinv.sub, hinv.some_core, ?_⟩
    intro i hi
    rcases Nat.lt_succ_iff_lt_or_eq.1 hi with hi | rfl
    · exact hinv.pair i hi
    · rw [hfirst, hsecond, heq]
  · obtain ⟨hone, hsub⟩ := delFirstCore_spec (hinv.some_core (ports.ethDevs + 2 * j) (by omega))
    have hpos := hdealt.some_core (ports.ethDevs + 2 * j + 1) (by omega)
    refine Or.inr ⟨hmore, fun p hp => ?_, fun p c hc => ?_, fun p hp => ?_, fun i hi => ?_⟩
    · rw [Function.update_of_ne (by omega), hinv.rest p (by omega)]
    · rcases eq_or_ne p (ports.ethDevs + 2 * j) with rfl | hne
      · rw [Function.update_self] at hc
        exact hinv.sub _ c (hsub c hc)
      · rw [Function.update_of_ne hne] at hc
        exact hinv.sub p c hc
    · rcases eq_or_ne p (ports.ethDevs + 2 * j) with rfl | hne
      · rw [Function.update_self]
        omega
      · rw [Function.update_of_ne hne]
        exact hinv.some_core p hp
    · rcases Nat.lt_succ_iff_lt_or_eq.1 hi with hi | rfl
      · rw [Function.update_of_ne (by omega), Function.update_of_ne (by omega), hinv.pair i hi]
      · rw [Function.update_self, Function.update_of_ne (by omega)]
        omega

/-- By induction on the pairs that are left: no abort, and all pairs are equal. -/
theorem ringRepair_spec
    (left : Nat)
    {j : Nat} {masks : Nat → BitVec 64}
    (hdealt : Dealt lc ports a)
    (hinv : PairInv lc ports a j masks)
    (hleft : j + left = ports.ringIfPairs) :
    ∃ masks', ringRepair lc ports a.coresPerPort (ports.ethDevs + 2 * j) masks = some masks' ∧
      PairInv lc ports a ports.ringIfPairs masks' := by
  induction left generalizing j masks with
  | zero =>
      obtain rfl : j = ports.ringIfPairs := by
        omega
      refine ⟨masks, ?_, hinv⟩
      rw [ringRepair, if_neg]
      rw [isRingPort_iff, Ports.dealt, Ports.ringIfGetCount]
      omega
  | succ left ih =>
      have hring : ports.ethDevs ≤ ports.ethDevs + 2 * j ∧
          ports.ethDevs + 2 * j < ports.dealt := by
        rw [Ports.dealt, Ports.ringIfGetCount]
        omega
      rw [ringRepair, if_pos (isRingPort_iff.2 hring)]
      rcases hinv.step hdealt (by omega) with ⟨heq, hnext⟩ | ⟨hmore, hnext⟩
      · rw [if_neg (by simpa using heq)]
        exact ih hnext (by omega)
      · rw [if_pos (by omega), if_neg (by simpa using hmore)]
        exact ih hnext (by omega)

theorem firstRingPort_eq
    (hpairs : 0 < ports.ringIfPairs) :
    firstRingPort ports = ports.ethDevs := by
  have hfind : (List.range ports.portGetPreInitPortCount).find? ports.portPreInitIsRingPort =
      some ports.ethDevs := by
    have hring : ports.ethDevs ≤ ports.ethDevs ∧ ports.ethDevs < ports.dealt := by
      rw [Ports.dealt, Ports.ringIfGetCount]
      omega
    obtain ⟨hlt, hfirst⟩ := isRingPort_iff.2 hring
    rw [List.find?_range_eq_some]
    refine ⟨hfirst, List.mem_range.2 hlt, fun p hp => ?_⟩
    rw [Bool.not_eq_true', Bool.eq_false_iff]
    intro hearly
    have := (isRingPort_iff.1 ⟨hp.trans hlt, hearly⟩).1
    omega
  rw [firstRingPort, hfind, Option.getD_some]

theorem firstRingPort_none
    (hpairs : ports.ringIfPairs = 0) :
    firstRingPort ports = ports.portGetPreInitPortCount := by
  have hfind : (List.range ports.portGetPreInitPortCount).find? ports.portPreInitIsRingPort =
      none := by
    rw [List.find?_eq_none]
    intro p hp hring
    have hrange := isRingPort_iff.1 ⟨List.mem_range.1 hp, hring⟩
    rw [Ports.dealt, Ports.ringIfGetCount, hpairs] at hrange
    omega
  rw [firstRingPort, hfind, Option.getD_none]

theorem PairInv.zero
    (hdealt : Dealt lc ports a) :
    PairInv lc ports a 0 a.pcoreMask := by
  refine ⟨fun _ _ => rfl, fun _ _ hc => hc, fun p hp => ?_, fun i hi => ?_⟩
  · rw [hdealt.counted p hp]
    exact hdealt.some_core p hp
  · exact absurd hi (Nat.not_lt_zero i)

theorem PairInv.defaultMasks
    {masks : Nat → BitVec 64}
    (hdealt : Dealt lc ports a)
    (hinv : PairInv lc ports a ports.ringIfPairs masks) :
    DefaultMasks lc ports masks := by
  refine ⟨fun p _ c hc => hdealt.pkt p c (hinv.sub p c hc), hinv.some_core, ?_, hinv.pair⟩
  intro p hp hkni
  have hrest : ports.ethDevs + 2 * ports.ringIfPairs ≤ p := by
    rw [Ports.dealt, Ports.ringIfGetCount] at hkni
    omega
  rw [hinv.rest p hrest, hdealt.counted p hp, hdealt.kni p hp hkni]

end RingPairs

/-! ## The defaults -/

section Defaults

variable {lc : Lcores} {ports : Ports}

theorem RoundInv.start
    (hpos : 0 < ports.portGetPreInitPortCount) :
    RoundInv lc ports 0 0 ⟨fun _ => 0#64, fun _ => 0⟩ := by
  refine ⟨fun p _ => coreCount_zero lc, fun p c hc => ?_, fun _ => ⟨rfl, ?_, ?_⟩, fun h => ?_⟩
  · rw [mem_coresOf, portCoreidInMask_zero] at hc
    exact absurd hc.2 Bool.false_ne_true
  · intro p _
    rw [if_neg (Nat.not_lt_zero p)]
  · intro p _
    rfl
  · omega

/-- With no ring ports there is nothing to repair. -/
theorem Dealt.defaultMasks
    {a : Assignment}
    (hdealt : Dealt lc ports a)
    (hnone : ports.ringIfPairs = 0) :
    DefaultMasks lc ports a.pcoreMask := by
  refine PairInv.defaultMasks hdealt ?_
  rw [hnone]
  exact PairInv.zero hdealt

theorem portHandleCmdlineOptQmapMaxc_spec
    {fuel : Nat}
    (hfuel : ports.portGetPreInitPortCount + 2 * lc.slaves.length < fuel) :
    ∃ masks, portHandleCmdlineOptQmapMaxc lc ports fuel = some (some masks) ∧
      DefaultMasks lc ports masks := by
  rw [portHandleCmdlineOptQmapMaxc]
  rcases Nat.eq_zero_or_pos ports.portGetPreInitPortCount with hzero | hpos
  · refine ⟨fun _ => 0#64, by simp only [hzero, if_true], ?_, ?_, ?_, fun i _ => rfl⟩
    all_goals
      intro p hp
      omega
  · obtain ⟨early, a, hrun, hdealt, hearly⟩ :=
      maxcLoop_spec (maxTurns lc ports) (RoundInv.start hpos) (Nat.zero_add _) hfuel
    rw [maxTurns] at hrun
    simp only [hpos.ne', if_false, @firstPktCore_zero lc fuel (by omega), hrun, Option.bind_some]
    cases early with
    | true =>
        have hnone : ports.ringIfPairs = 0 := by
          have hall := hearly rfl
          rw [Ports.dealt, Ports.ringIfGetCount] at hall
          omega
        exact ⟨a.pcoreMask, by rw [if_pos rfl], hdealt.defaultMasks hnone⟩
    | false =>
        rw [if_neg Bool.false_ne_true]
        rcases Nat.eq_zero_or_pos ports.ringIfPairs with hnone | hpairs
        · rw [if_pos (firstRingPort_none hnone)]
          exact ⟨a.pcoreMask, rfl, hdealt.defaultMasks hnone⟩
        · obtain ⟨masks, hrepair, hinv⟩ :=
            ringRepair_spec ports.ringIfPairs hdealt (PairInv.zero hdealt) (Nat.zero_add _)
          have hne : ports.ethDevs ≠ ports.portGetPreInitPortCount := by
            rw [Ports.portGetPreInitPortCount, Ports.ringIfGetCount]
            omega
          rw [Nat.mul_zero, Nat.add_zero] at hrepair
          rw [firstRingPort_eq hpairs, if_neg hne, hrepair]
          exact ⟨masks, rfl, hinv.defaultMasks hdealt⟩

/-- The cores of the mask after the loop, for a port that takes them all. -/
theorem maxqCores_all
    {left : List Nat} {mask : BitVec 64}
    (hleft : ∀ c ∈ left, c < 64)
    {c : Nat}
    (hc : c < 64) :
    portCoreidInMask (maxqCores lc false left mask) c = true ↔
      portCoreidInMask mask c = true ∨ c ∈ left ∧ lc.isPktCore c = true := by
  induction left generalizing mask with
  | nil =>
      simp [maxqCores]
  | cons d left ih =>
      have hrest := fun e he => hleft e (List.mem_cons_of_mem d he)
      rw [maxqCores]
      by_cases hd : lc.isPktCore d = true
      · rw [if_pos hd, if_neg Bool.false_ne_true, ih hrest,
          portCoreidInMask_add (hleft d (by simp)) hc, Bool.or_eq_true, decide_eq_true_iff,
          List.mem_cons]
        constructor
        · rintro ((hin | rfl) | hin)
          · exact Or.inl hin
          · exact Or.inr ⟨Or.inl rfl, hd⟩
          · exact Or.inr ⟨Or.inr hin.1, hin.2⟩
        · rintro (hin | ⟨rfl | hin, hpkt⟩)
          · exact Or.inl (Or.inl hin)
          · exact Or.inl (Or.inr rfl)
          · exact Or.inr ⟨hin, hpkt⟩
      · rw [if_neg hd, ih hrest, List.mem_cons]
        constructor
        · rintro (hin | hin)
          · exact Or.inl hin
          · exact Or.inr ⟨Or.inr hin.1, hin.2⟩
        · rintro (hin | ⟨rfl | hin, hpkt⟩)
          · exact Or.inl hin
          · exact absurd hpkt hd
          · exact Or.inr ⟨hin, hpkt⟩

/-- A KNI port takes the first packet core only. -/
theorem maxqCores_kni
    {left : List Nat} {core : Nat}
    (hfind : left.find? lc.isPktCore = some core) :
    maxqCores lc true left 0#64 = portAddCoreToMask 0#64 core := by
  induction left with
  | nil =>
      cases hfind
  | cons d left ih =>
      rw [maxqCores]
      by_cases hd : lc.isPktCore d = true
      · rw [List.find?_cons_of_pos hd] at hfind
        rw [if_pos hd, if_pos rfl, Option.some.inj hfind]
      · rw [List.find?_cons_of_neg hd] at hfind
        rw [if_neg hd, ih hfind]

theorem coresOf_maxq
    {port : Nat}
    (hport : ports.portPreInitIsKniPort port = false) :
    coresOf lc (portHandleCmdlineOptQmapMaxq lc ports port) = pktCores lc := by
  rw [portHandleCmdlineOptQmapMaxq, hport]
  refine List.filter_congr fun c hc => Bool.eq_iff_iff.2 ?_
  rw [maxqCores_all lc.below (lc.below c hc), portCoreidInMask_zero]
  simp [hc]

theorem coreCount_maxq_kni
    {port : Nat}
    (hport : ports.portPreInitIsKniPort port = true) :
    coreCount lc (portHandleCmdlineOptQmapMaxq lc ports port) = 1 ∧
      ∀ c ∈ coresOf lc (portHandleCmdlineOptQmapMaxq lc ports port), lc.isPktCore c = true := by
  rw [portHandleCmdlineOptQmapMaxq, hport, maxqCores_kni (find?_slaves lc)]
  refine ⟨?_, fun c hc => ?_⟩
  · rw [coreCount_add (pktAt_slave lc 0) (portCoreidInMask_zero _), coreCount_zero]
  · obtain ⟨hslave, hin⟩ := mem_coresOf.1 hc
    rw [portCoreidInMask_add (lc.below _ (pktAt_slave lc 0)) (lc.below c hslave),
      portCoreidInMask_zero, Bool.false_or, decide_eq_true_iff] at hin
    rw [hin]
    exact pktAt_isPktCore lc 0

theorem portHandleCmdlineOptQmapMaxq_spec
    (lc : Lcores) (ports : Ports) :
    DefaultMasks lc ports (portHandleCmdlineOptQmapMaxq lc ports) := by
  have hcount : ∀ port, ports.portPreInitIsKniPort port = false →
      coreCount lc (portHandleCmdlineOptQmapMaxq lc ports port) = cfgPktCoreCount lc := by
    intro port hport
    rw [coreCount, coresOf_maxq hport, cfgPktCoreCount]
  refine ⟨fun p hp c hc => ?_, fun p hp => ?_, fun p hp hkni => ?_, fun i hi => ?_⟩
  · cases hkni : ports.portPreInitIsKniPort p with
    | true =>
        exact (coreCount_maxq_kni hkni).2 c hc
    | false =>
        rw [coresOf_maxq hkni] at hc
        exact (List.mem_filter.1 hc).2
  · cases hkni : ports.portPreInitIsKniPort p with
    | true =>
        rw [(coreCount_maxq_kni hkni).1]
        exact Nat.one_pos
    | false =>
        rw [hcount p hkni]
        exact cfgPktCoreCount_pos lc
  · exact (coreCount_maxq_kni ((isKniPort_iff hp).2 hkni)).1
  · have hring : ∀ p, p < ports.dealt → ports.portPreInitIsKniPort p = false := by
      intro p hp
      rw [Bool.eq_false_iff]
      intro hkni
      have := (isKniPort_iff (hp.trans_le (dealt_le ports))).1 hkni
      omega
    have hpair : ports.ethDevs + 2 * i + 1 < ports.dealt := by
      rw [Ports.dealt, Ports.ringIfGetCount]
      omega
    rw [hcount _ (hring _ (by omega)), hcount _ (hring _ hpair)]

end Defaults

end CoreAssignment
end Warp17
