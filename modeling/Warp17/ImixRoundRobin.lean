import Warp17.CyclicReads
import Warp17.ManagementApi

/-!
# IMIX groups in turn

A session of an IMIX application starts the application of its group that is next in a table
(src/src/appl/tpg_test_imix_app.c).  The table has the index of every application as often as its
weight says; it is built at the start of a test and has room for 100 entries.  The management
interface (src/src/tpg_test_mgmt_api.c) sums the weights in 32 bits before it compares them with
that.

**Results**
- `imixTcStart_some`: the table of a group whose weights fit.
- `sessions_eq`: the applications that a number of connections start.
- `weightedRoundRobin_iff`: the accepted groups whose applications are started by weight.
-/

namespace Warp17
namespace ImixRoundRobin

open TestCaseConfig ManagementApi CyclicReads

/-! ## The table -/

/-- `imix_app_table_t` -/
structure ImixAppTable where
  iatAppIndices : List Nat
  iatCount : Nat
  iatLast : Nat
deriving DecidableEq, Repr

/-- The table after it is cleared. -/
def clearedTable : ImixAppTable :=
  ⟨List.replicate tpgImixMaxTotalAppWeight 0, 0, 0⟩

/-- One entry more; `none` is the failed assertion.  An index has 16 bits. -/
def addAppIndex (appTable : ImixAppTable) (appIdx : Nat) : Option ImixAppTable :=
  if appTable.iatCount < tpgImixMaxTotalAppWeight then
    some { appTable with
      iatAppIndices := appTable.iatAppIndices.set appTable.iatCount (appIdx % 2 ^ 16)
      iatCount := appTable.iatCount + 1 }
  else none

/-- The inner loop: `weight` entries for an application. -/
def addAppIndices (appTable : ImixAppTable) (appIdx : Nat) : Nat → Option ImixAppTable
  | 0 => some appTable
  | weight + 1 => do
      let appTable ← addAppIndex appTable appIdx
      addAppIndices appTable appIdx weight

/-- The outer loop, from the application with index `appIdx` on. -/
def fillTable (appTable : ImixAppTable) : Nat → List ImixApp → Option ImixAppTable
  | _, [] => some appTable
  | appIdx, app :: apps => do
      let appTable ← addAppIndices appTable appIdx app.iaWeight
      fillTable appTable (appIdx + 1) apps

/-- `imix_tc_start`, as far as the table goes. -/
def imixTcStart (apps : List ImixApp) : Option ImixAppTable :=
  fillTable clearedTable 0 apps

/-- The choice of `imix_conn_up`: the index of the application, and the table after it.  `none` is
a read outside the table, a division by zero, or the failed assertion on the index. -/
def imixConnUp (apps : List ImixApp) (appTable : ImixAppTable) : Option (Nat × ImixAppTable) := do
  let imixIndex ← appTable.iatAppIndices[appTable.iatLast]?
  if appTable.iatCount = 0 then none
  else if imixIndex < apps.length then
    some (imixIndex,
      { appTable with iatLast := (appTable.iatLast + 1) % 2 ^ 32 % appTable.iatCount })
  else none

/-- A number of connections, one after the other on a core. -/
def sessions (apps : List ImixApp) (appTable : ImixAppTable) : Nat → Option (List Nat)
  | 0 => some []
  | n + 1 => do
      let (imixIndex, appTable) ← imixConnUp apps appTable
      (imixIndex :: ·) <$> sessions apps appTable n

/-! ## The entries -/

/-- The indices of the applications from `appIdx` on, each as often as its weight says. -/
def slots : Nat → List ImixApp → List Nat
  | _, [] => []
  | appIdx, app :: apps => List.replicate app.iaWeight appIdx ++ slots (appIdx + 1) apps

theorem length_slots
    (appIdx : Nat) (apps : List ImixApp) :
    (slots appIdx apps).length = groupWeight apps := by
  induction apps generalizing appIdx with
  | nil =>
      rfl
  | cons app apps ih =>
      rw [slots, List.length_append, List.length_replicate, ih, groupWeight, groupWeight,
        List.map_cons, List.sum_cons]

theorem mem_slots
    {i appIdx : Nat} {apps : List ImixApp}
    (hmem : i ∈ slots appIdx apps) :
    appIdx ≤ i ∧ i < appIdx + apps.length := by
  induction apps generalizing appIdx with
  | nil =>
      cases hmem
  | cons app apps ih =>
      rw [List.length_cons]
      rcases List.mem_append.1 hmem with hfirst | hrest
      · rw [List.eq_of_mem_replicate hfirst]
        omega
      · have hbounds := ih hrest
        omega

theorem count_slots
    {i appIdx : Nat} {apps : List ImixApp}
    (hi : i < apps.length) :
    (slots appIdx apps).count (appIdx + i) = apps[i].iaWeight := by
  induction apps generalizing appIdx i with
  | nil =>
      exact absurd hi (Nat.not_lt_zero i)
  | cons app apps ih =>
      rw [slots, List.count_append]
      cases i with
      | zero =>
          have hrest : (slots (appIdx + 1) apps).count appIdx = 0 :=
            List.count_eq_zero.2 fun hmem => by
              have hbounds := mem_slots hmem
              omega
          rw [Nat.add_zero, List.count_replicate_self, hrest]
          rfl
      | succ i =>
          have hfirst : (List.replicate app.iaWeight appIdx).count (appIdx + (i + 1)) = 0 :=
            List.count_eq_zero.2 fun hmem => by
              have heq := List.eq_of_mem_replicate hmem
              omega
          have hsum : appIdx + (i + 1) = appIdx + 1 + i := by omega
          rw [hfirst, Nat.zero_add, hsum, ih (Nat.lt_of_succ_lt_succ hi)]
          rfl

/-! ## Filling the table -/

/-- The table holds `entries`, and nothing else has been taken from it. -/
structure Holding (entries : List Nat) (appTable : ImixAppTable) : Prop where
  size : appTable.iatAppIndices.length = tpgImixMaxTotalAppWeight
  holds : appTable.iatAppIndices.take appTable.iatCount = entries
  count : appTable.iatCount = entries.length
  last : appTable.iatLast = 0

section Filling

variable {appTable appTable' : ImixAppTable} {entries : List Nat} {appIdx : Nat}

theorem holding_cleared :
    Holding [] clearedTable :=
  ⟨List.length_replicate, rfl, rfl, rfl⟩

theorem Holding.count_le
    (h : Holding entries appTable) :
    entries.length ≤ tpgImixMaxTotalAppWeight := by
  rw [← h.holds, ← h.size]
  exact List.length_take_le' _ _

/-- An entry fits, or the assertion fails. -/
theorem addAppIndex_cases
    (h : Holding entries appTable)
    (hidx : appIdx < 2 ^ 16) :
    (entries.length < tpgImixMaxTotalAppWeight ∧ ∃ appTable',
      addAppIndex appTable appIdx = some appTable' ∧ Holding (entries ++ [appIdx]) appTable') ∨
    (tpgImixMaxTotalAppWeight ≤ entries.length ∧ addAppIndex appTable appIdx = none) := by
  rw [addAppIndex, h.count, Nat.mod_eq_of_lt hidx]
  rcases Nat.lt_or_ge entries.length tpgImixMaxTotalAppWeight with hroom | hfull
  · rw [if_pos hroom]
    refine Or.inl ⟨hroom, _, rfl, ⟨?_, ?_, ?_, h.last⟩⟩
    · rw [List.length_set, h.size]
    · have hentries := h.holds
      rw [h.count] at hentries
      have hlt : entries.length < (appTable.iatAppIndices.set entries.length appIdx).length := by
        rw [List.length_set, h.size]
        exact hroom
      show (appTable.iatAppIndices.set entries.length appIdx).take (entries.length + 1) = _
      rw [List.take_succ_eq_append_getElem hlt, List.getElem_set_self,
        List.take_set_of_le le_rfl, hentries]
    · rw [List.length_append, List.length_singleton]
  · rw [if_neg (Nat.not_lt.2 hfull)]
    exact Or.inr ⟨hfull, rfl⟩

/-- By induction on the weight. -/
theorem addAppIndices_cases
    {weight : Nat}
    (h : Holding entries appTable)
    (hidx : appIdx < 2 ^ 16) :
    (entries.length + weight ≤ tpgImixMaxTotalAppWeight ∧ ∃ appTable',
      addAppIndices appTable appIdx weight = some appTable' ∧
        Holding (entries ++ List.replicate weight appIdx) appTable') ∨
    (tpgImixMaxTotalAppWeight < entries.length + weight ∧
      addAppIndices appTable appIdx weight = none) := by
  induction weight generalizing appTable entries with
  | zero =>
      refine Or.inl ⟨h.count_le, appTable, rfl, ?_⟩
      rw [List.replicate_zero, List.append_nil]
      exact h
  | succ weight ih =>
      rw [addAppIndices]
      rcases addAppIndex_cases h hidx with ⟨-, appTable', hadd, h'⟩ | ⟨hfull, hadd⟩
      · rw [hadd]
        have hrest := ih h'
        rw [List.length_append, List.length_singleton, Nat.add_assoc, Nat.add_comm 1 weight,
          List.append_assoc] at hrest
        exact hrest
      · rw [hadd]
        exact Or.inr ⟨by omega, rfl⟩

/-- By induction on the applications: the table is filled, or the assertion fails. -/
theorem fillTable_cases
    {apps : List ImixApp}
    (h : Holding entries appTable)
    (hidx : appIdx + apps.length ≤ 2 ^ 16) :
    (entries.length + groupWeight apps ≤ tpgImixMaxTotalAppWeight ∧ ∃ appTable',
      fillTable appTable appIdx apps = some appTable' ∧
        Holding (entries ++ slots appIdx apps) appTable') ∨
    (tpgImixMaxTotalAppWeight < entries.length + groupWeight apps ∧
      fillTable appTable appIdx apps = none) := by
  induction apps generalizing appTable entries appIdx with
  | nil =>
      refine Or.inl ⟨h.count_le, appTable, rfl, ?_⟩
      rw [slots, List.append_nil]
      exact h
  | cons app apps ih =>
      rw [List.length_cons] at hidx
      have hweight : groupWeight (app :: apps) = app.iaWeight + groupWeight apps := by
        rw [groupWeight, List.map_cons, List.sum_cons]
        rfl
      rw [fillTable, slots, hweight]
      rcases @addAppIndices_cases appTable entries appIdx app.iaWeight h (by omega) with
        ⟨-, appTable', hadd, h'⟩ | ⟨hfull, hadd⟩
      · rw [hadd]
        have hrest := @ih appTable' _ (appIdx + 1) h' (by omega)
        rw [List.length_append, List.length_replicate, Nat.add_assoc, List.append_assoc] at hrest
        exact hrest
      · rw [hadd]
        exact Or.inr ⟨by omega, rfl⟩

/-- The table of a group whose weights fit into it. -/
theorem imixTcStart_some
    {apps : List ImixApp}
    (hfew : apps.length ≤ tpgImixMaxApps)
    (hfits : groupWeight apps ≤ tpgImixMaxTotalAppWeight) :
    ∃ appTable, imixTcStart apps = some appTable ∧ Holding (slots 0 apps) appTable := by
  rw [tpgImixMaxApps] at hfew
  rcases @fillTable_cases clearedTable [] 0 apps holding_cleared (by omega) with
    ⟨-, appTable, hfill, h⟩ | ⟨hfull, -⟩
  · exact ⟨appTable, hfill, h⟩
  · rw [List.length_nil] at hfull
    omega

theorem imixTcStart_none
    {apps : List ImixApp}
    (hfew : apps.length ≤ tpgImixMaxApps)
    (hfull : tpgImixMaxTotalAppWeight < groupWeight apps) :
    imixTcStart apps = none := by
  rw [tpgImixMaxApps] at hfew
  rcases @fillTable_cases clearedTable [] 0 apps holding_cleared (by omega) with
    ⟨hfits, -⟩ | ⟨-, hfill⟩
  · rw [List.length_nil] at hfits
    omega
  · exact hfill

end Filling

/-! ## Connections -/

section Connections

variable {appTable : ImixAppTable} {apps : List ImixApp}

/-- The table of a group in use: it holds the entries of the group, and is read at one of them. -/
structure InUse (apps : List ImixApp) (appTable : ImixAppTable) : Prop where
  holds : appTable.iatAppIndices.take appTable.iatCount = slots 0 apps
  count : appTable.iatCount = (slots 0 apps).length
  last : appTable.iatLast < (slots 0 apps).length

theorem Holding.inUse
    (h : Holding (slots 0 apps) appTable)
    (hpos : 0 < groupWeight apps) :
    InUse apps appTable := by
  refine ⟨h.holds, h.count, ?_⟩
  rw [h.last, length_slots]
  exact hpos

/-- A connection starts the application at the position of the table, which moves on. -/
theorem InUse.imixConnUp
    (h : InUse apps appTable)
    (hsmall : groupWeight apps ≤ tpgImixMaxTotalAppWeight) :
    ∃ appTable', ImixRoundRobin.imixConnUp apps appTable =
        some ((slots 0 apps).get ⟨appTable.iatLast, h.last⟩, appTable') ∧
      InUse apps appTable' ∧ appTable'.iatLast = advance (slots 0 apps) appTable.iatLast := by
  have hlast := h.last
  have hcount := h.count
  have hget : appTable.iatAppIndices[appTable.iatLast]? =
      some ((slots 0 apps).get ⟨appTable.iatLast, h.last⟩) := by
    rw [List.get_eq_getElem, ← List.getElem?_eq_getElem h.last, ← h.holds,
      List.getElem?_take_of_lt (by rw [hcount]; exact hlast)]
  have hbound := mem_slots (List.get_mem (slots 0 apps) ⟨appTable.iatLast, h.last⟩)
  have hnext : (appTable.iatLast + 1) % 2 ^ 32 % appTable.iatCount =
      advance (slots 0 apps) appTable.iatLast := by
    rw [length_slots] at hlast
    rw [tpgImixMaxTotalAppWeight] at hsmall
    rw [advance, hcount, Nat.mod_eq_of_lt (show appTable.iatLast + 1 < 2 ^ 32 by omega)]
  rw [Nat.zero_add] at hbound
  refine ⟨{ appTable with iatLast := (appTable.iatLast + 1) % 2 ^ 32 % appTable.iatCount }, ?_,
    ⟨h.holds, h.count, ?_⟩, hnext⟩
  · rw [ImixRoundRobin.imixConnUp, hget]
    show (if appTable.iatCount = 0 then none else _) = _
    rw [if_neg (by omega), if_pos hbound.2]
  · show (appTable.iatLast + 1) % 2 ^ 32 % appTable.iatCount < _
    rw [hnext]
    exact advance_lt hlast

/-- By induction on the connections: they start what is read from the table in a circle. -/
theorem sessions_eq
    {n : Nat}
    (h : InUse apps appTable)
    (hsmall : groupWeight apps ≤ tpgImixMaxTotalAppWeight) :
    sessions apps appTable n = some (reads (slots 0 apps) appTable.iatLast n) := by
  induction n generalizing appTable with
  | zero =>
      rfl
  | succ n ih =>
      obtain ⟨appTable', hup, h', hnext⟩ := h.imixConnUp hsmall
      rw [sessions, hup, reads_succ h.last]
      show (_ :: ·) <$> sessions apps appTable' n = _
      rw [ih h', hnext]
      rfl

end Connections

/-! ## Fairness -/

section Fairness

/-- What the table of a group is for.  It is filled with as many entries as the weights have
together, at least one, and within its size; and after any number of connections, the next ones,
as many as the weights have together, start each application as often as its weight says. -/
structure WeightedRoundRobin (apps : List ImixApp) : Prop where
  filled : ∃ appTable, imixTcStart apps = some appTable ∧ Holding (slots 0 apps) appTable ∧
    appTable.iatCount = groupWeight apps ∧ appTable.iatCount ≠ 0
  fair : ∀ appTable, imixTcStart apps = some appTable → ∀ n, ∃ started,
    sessions apps appTable (n + groupWeight apps) = some started ∧
      ∀ i (hi : i < apps.length), (started.drop n).count i = apps[i].iaWeight

theorem testMgmtValidateImixGroup_true
    {apps : List ImixApp}
    (hvalid : testMgmtValidateImixGroup apps = true) :
    0 < apps.length ∧ apps.length ≤ tpgImixMaxApps ∧ ∀ app ∈ apps, 0 < app.iaWeight := by
  rw [testMgmtValidateImixGroup] at hvalid
  split at hvalid
  next => cases hvalid
  next hsome =>
    split at hvalid
    next => cases hvalid
    next hfew =>
      split at hvalid
      next => cases hvalid
      next hweights =>
        refine ⟨Nat.pos_of_ne_zero hsome, Nat.not_lt.1 hfew, fun app hmem => ?_⟩
        refine Nat.pos_of_ne_zero fun hzero => hweights ?_
        exact List.any_eq_true.2 ⟨app, hmem, decide_eq_true hzero⟩

theorem groupWeight_pos
    {apps : List ImixApp}
    (hvalid : testMgmtValidateImixGroup apps = true) :
    0 < groupWeight apps := by
  obtain ⟨hsome, -, hweights⟩ := testMgmtValidateImixGroup_true hvalid
  obtain ⟨app, rest, rfl⟩ := List.exists_cons_of_length_pos hsome
  have hfirst := hweights app List.mem_cons_self
  rw [groupWeight, List.map_cons, List.sum_cons]
  omega

/-- The applications of an accepted group are started by weight, at every number of connections,
if and only if the weights have not more together than the table has entries. -/
theorem weightedRoundRobin_iff
    (apps : List ImixApp)
    (hvalid : testMgmtValidateImixGroup apps = true) :
    WeightedRoundRobin apps ↔ groupWeight apps ≤ tpgImixMaxTotalAppWeight := by
  have hfew := (testMgmtValidateImixGroup_true hvalid).2.1
  have hpos := groupWeight_pos hvalid
  constructor
  · intro hrobin
    obtain ⟨appTable, hstart, -⟩ := hrobin.filled
    by_contra hfull
    rw [imixTcStart_none hfew (Nat.not_le.1 hfull)] at hstart
    cases hstart
  · intro hfits
    obtain ⟨appTable, hstart, h⟩ := imixTcStart_some hfew hfits
    refine ⟨⟨appTable, hstart, h, ?_, ?_⟩, ?_⟩
    · rw [h.count, length_slots]
    · rw [h.count, length_slots]
      exact hpos.ne'
    · intro appTable' hstart' n
      rw [hstart] at hstart'
      obtain rfl := Option.some.inj hstart'
      have hinUse := h.inUse hpos
      refine ⟨_, sessions_eq hinUse hfits, fun i hi => ?_⟩
      have hcount := @count_slots i 0 apps hi
      rw [Nat.zero_add] at hcount
      rw [← length_slots 0 apps, count_round hinUse.last, hcount]

/-- A RAW client. -/
def rawMember (weight : Nat) : ImixApp :=
  ⟨weight, .basic (.rawClient ⟨1, 1, ⟨false, false⟩, ⟨false, false⟩⟩)⟩

/-- Three sessions of one application for every two of the other. -/
theorem weightedRoundRobin_iff_five :
    WeightedRoundRobin [rawMember 3, rawMember 2] ↔
      groupWeight [rawMember 3, rawMember 2] ≤ tpgImixMaxTotalAppWeight :=
  weightedRoundRobin_iff _ (by decide)

/-- Two weights whose sum is lost are accepted, and the table has no room for them. -/
theorem lost_weight_not_started :
    testMgmtValidateImixGroup [rawMember (2 ^ 31), rawMember (2 ^ 31)] = true ∧
      ¬ WeightedRoundRobin [rawMember (2 ^ 31), rawMember (2 ^ 31)] := by
  refine ⟨by decide, fun hrobin => ?_⟩
  obtain ⟨appTable, hstart, -⟩ := hrobin.filled
  rw [imixTcStart_none (by decide) (by decide)] at hstart
  cases hstart

end Fairness

end ImixRoundRobin
end Warp17
