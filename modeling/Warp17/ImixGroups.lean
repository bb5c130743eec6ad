import Warp17.BoundedCalls
import Warp17.TestCaseConfig

/-!
# The applications of IMIX groups

The callbacks of an IMIX application (src/src/appl/tpg_test_imix_app.c) call those of the
applications of its group through a table indexed by the application protocol.  The management
interface takes any application for a member of a group: one of another group, of the group itself,
or of a protocol that is in no table.

A configuration comes with its texts, which `http_client_delete_cfg` and `http_server_delete_cfg`
(src/src/appl/tpg_test_http_1_1_app.c) free.  The members of a group stay where they are then, with
pointers to what was freed.  An allocation that was freed is never named again by a new text.

**Results**
- `validateCfg_iff`: when a validation ends, and with what.
- `addCfg_spec`: what adding an accepted application does to the groups.
- `Held.deletable_iff`: when deleting what a test case holds ends.
-/

namespace Warp17
namespace ImixGroups

open BoundedCalls TestCaseConfig

abbrev tpgImixMaxGroups : Nat := 16

abbrev Groups := Nat → ImixGroup

/-- What the applications of all ports share: the groups, and the allocations that were freed. -/
structure Imix where
  groups : Groups
  freed : List Nat

/-- Why a call does not return: it goes deeper than its number, it calls outside a table of
callbacks, an assertion fails, or it looks at a text or frees one that was freed. -/
inductive Failure
  | deep
  | wild
  | assertion
  | freed
deriving DecidableEq, Repr

abbrev Called := Except Failure

/-! ## The callbacks -/

section Callbacks

variable (sockopt : Option Ipv4Sockopt) (cfg : TestCase)

/-- The loop of `imix_validate_cfg`, which the first refused application ends. -/
def validateApps (validate : App → Called Bool) : List ImixApp → Called Bool
  | [] => .ok true
  | app :: apps => do
      if ← validate app.iaApp then validateApps validate apps
      else .ok false

/-- `imix_validate_cfg`, with the validation of the members. -/
def imixValidateCfg (validate : App → Called Bool) (imix : Imix) (imixId : Nat) : Called Bool :=
  if imixId ≥ tpgImixMaxGroups then .ok false
  else if !(imix.groups imixId).tigConfigured then .ok false
  else if (imix.groups imixId).usedByOther cfg then .ok false
  else validateApps validate (imix.groups imixId).tigApps

/-- `APP_CALL(validate_cfg, app_proto)` -/
def validateCfg (imix : Imix) : Nat → App → Called Bool
  | _, .basic app =>
      if app.readsFreed imix.freed then .error .freed
      else .ok (basicValidateCfg sockopt app)
  | _, .max => .error .wild
  | 0, .imix _ => .error .deep
  | fuel + 1, .imix imixId => imixValidateCfg cfg (validateCfg imix fuel) imix imixId

/-- The loops of `imix_add_cfg` and `imix_delete_cfg`, whose calls change the groups. -/
def changeApps (change : Imix → App → Called Imix) : Imix → List ImixApp → Called Imix
  | imix, [] => .ok imix
  | imix, app :: apps => do
      let imix ← change imix app.iaApp
      changeApps change imix apps

/-- The group is in use by the test case. -/
def reference (groups : Groups) (imixId : Nat) : Groups :=
  Function.update groups imixId
    { groups imixId with
      tigReferenced := true
      tigOwnerEthPort := cfg.tcEthPort
      tigOwnerTcId := cfg.tcId }

def unreference (groups : Groups) (imixId : Nat) : Groups :=
  Function.update groups imixId { groups imixId with tigReferenced := false }

/-- `imix_add_cfg` -/
def imixAddCfg (add : Imix → App → Called Imix) (imix : Imix) (imixId : Nat) : Called Imix := do
  let imix ← changeApps add imix (imix.groups imixId).tigApps
  .ok { imix with groups := reference cfg imix.groups imixId }

/-- `APP_CALL(add_cfg, app_proto)`; the other applications have nothing to add. -/
def addCfg : Nat → Imix → App → Called Imix
  | _, imix, .basic _ => .ok imix
  | _, _, .max => .error .wild
  | 0, _, .imix _ => .error .deep
  | fuel + 1, imix, .imix imixId => imixAddCfg cfg (addCfg fuel) imix imixId

/-- `free` -/
def freeText (imix : Imix) (text : Text) : Called Imix :=
  if text.block ∈ imix.freed then .error .freed
  else .ok { imix with freed := text.block :: imix.freed }

/-- `raw_add_delete_cfg`, `http_client_delete_cfg` and `http_server_delete_cfg`. -/
def basicDeleteCfg (imix : Imix) (app : BasicApp) : Called Imix :=
  app.texts.foldlM freeText imix

/-- `imix_delete_cfg` -/
def imixDeleteCfg (delete : Imix → App → Called Imix) (imix : Imix) (imixId : Nat) :
    Called Imix := do
  let imix ← changeApps delete imix (imix.groups imixId).tigApps
  if (imix.groups imixId).tigReferenced then
    .ok { imix with groups := unreference imix.groups imixId }
  else .error .assertion

/-- `APP_CALL(delete_cfg, app_proto)` -/
def deleteCfg : Nat → Imix → App → Called Imix
  | _, imix, .basic app => basicDeleteCfg imix app
  | _, _, .max => .error .wild
  | 0, _, .imix _ => .error .deep
  | fuel + 1, imix, .imix imixId => imixDeleteCfg (deleteCfg fuel) imix imixId

end Callbacks

section TestCases

variable (sockopts : Nat → Nat → Option Ipv4Sockopt) (devCount : Nat)

/-- `test_mgmt_validate_app`; `sockopts` is what `test_mgmt_get_ipv4_sockopt` answers. -/
def testMgmtValidateApp (fuel : Nat) (imix : Imix) (cfg : TestCase) : Called Bool :=
  match cfg.tcApp with
  | .max => .ok false
  | app => validateCfg (sockopts cfg.tcEthPort cfg.tcId) cfg imix fuel app

/-- The checks of `test_mgmt_validate_test_case` before that of the application. -/
def checksBefore (cfg : TestCase) : Bool :=
  testMgmtValidatePortId devCount cfg.tcEthPort && testMgmtValidateTestCaseId cfg.tcId &&
    testMgmtValidateLatency cfg

def testMgmtValidateTestCase (fuel : Nat) (imix : Imix) (cfg : TestCase) : Called Bool :=
  if !checksBefore devCount cfg then .ok false
  else do
    if ← testMgmtValidateApp sockopts fuel imix cfg then .ok (validateSide cfg)
    else .ok false

end TestCases

/-! ## What is below an application -/

section Trees

/-- The members of each group. -/
def members (groups : Groups) (imixId : Nat) : List ImixApp :=
  (groups imixId).tigApps

/-- The application itself, a member of its group, a member of a member's group, and so on. -/
inductive Below (apps : Nat → List ImixApp) : App → App → Prop
  | self (app : App) : Below apps app app
  | member {imixId : Nat} {m : ImixApp} {app : App} (hmem : m ∈ apps imixId)
      (hbelow : Below apps m.iaApp app) : Below apps (.imix imixId) app

/-- A group that is configured, and free for the test case. -/
def Usable (cfg : TestCase) (groups : Groups) (imixId : Nat) : Prop :=
  imixId < tpgImixMaxGroups ∧ (groups imixId).tigConfigured = true ∧
    (groups imixId).usedByOther cfg = false

instance (cfg : TestCase) (groups : Groups) (imixId : Nat) :
    Decidable (Usable cfg groups imixId) :=
  inferInstanceAs (Decidable (_ ∧ _ ∧ _))

/-- An application with a behaviour of its own is accepted without looking at a freed text. -/
def BasicPassed (sockopt : Option Ipv4Sockopt) (freed : List Nat) (app : BasicApp) : Prop :=
  app.readsFreed freed = false ∧ basicValidateCfg sockopt app = true

/-- The application is accepted, and all below it. -/
inductive Passed (sockopt : Option Ipv4Sockopt) (cfg : TestCase) (imix : Imix) : App → Prop
  | basic (app : BasicApp) (hpassed : BasicPassed sockopt imix.freed app) :
      Passed sockopt cfg imix (.basic app)
  | group (imixId : Nat) (husable : Usable cfg imix.groups imixId)
      (hmembers : ∀ m ∈ members imix.groups imixId, Passed sockopt cfg imix m.iaApp) :
      Passed sockopt cfg imix (.imix imixId)

/-- All groups below the application can be taken by the test case. -/
inductive Takeable (cfg : TestCase) (groups : Groups) : App → Prop
  | basic (app : BasicApp) : Takeable cfg groups (.basic app)
  | group (imixId : Nat) (husable : Usable cfg groups imixId)
      (hmembers : ∀ m ∈ members groups imixId, Takeable cfg groups m.iaApp) :
      Takeable cfg groups (.imix imixId)

/-- Going down from the application comes to an end, and meets no protocol without callbacks and no
freed text, where the members behind one that is not accepted do not count. -/
inductive Grounded (sockopt : Option Ipv4Sockopt) (cfg : TestCase) (imix : Imix) : App → Prop
  | basic (app : BasicApp) (hlive : app.readsFreed imix.freed = false) :
      Grounded sockopt cfg imix (.basic app)
  | refused (imixId : Nat) (hrefused : ¬ Usable cfg imix.groups imixId) :
      Grounded sockopt cfg imix (.imix imixId)
  | group (imixId : Nat)
      (hmembers : ∀ before m after, members imix.groups imixId = before ++ m :: after →
        (∀ earlier ∈ before, Passed sockopt cfg imix earlier.iaApp) →
          Grounded sockopt cfg imix m.iaApp) :
      Grounded sockopt cfg imix (.imix imixId)

/-- The application, with all groups below it configured and owned by the test case. -/
inductive Held (cfg : TestCase) (groups : Groups) : App → Prop
  | basic (app : BasicApp) : Held cfg groups (.basic app)
  | group (imixId : Nat) (hconfigured : (groups imixId).tigConfigured = true)
      (howned : (groups imixId).OwnedBy cfg)
      (hmembers : ∀ m ∈ members groups imixId, Held cfg groups m.iaApp) :
      Held cfg groups (.imix imixId)

variable {sockopt sockopt' : Option Ipv4Sockopt} {cfg other : TestCase}
variable {imix imix' : Imix} {groups groups' : Groups} {app a : App}

theorem Passed.descend
    (h : Passed sockopt cfg imix app)
    (hbelow : Below (members imix.groups) app a) :
    Passed sockopt cfg imix a := by
  induction hbelow with
  | self app => exact h
  | member hmem hbelow ih =>
      cases h with
      | group _ _ hmembers => exact ih (hmembers _ hmem)

theorem Passed.takeable
    (h : Passed sockopt cfg imix app) :
    Takeable cfg imix.groups app := by
  induction h with
  | basic app hpassed => exact Takeable.basic app
  | group imixId husable hmembers ih => exact Takeable.group imixId husable ih

theorem Held.descend
    (h : Held cfg groups app)
    (hbelow : Below (members groups) app a) :
    Held cfg groups a := by
  induction hbelow with
  | self app => exact h
  | member hmem hbelow ih =>
      cases h with
      | group _ _ _ hmembers => exact ih (hmembers _ hmem)

/-- What is accepted is so for another test case, in other groups and with other options, when each
group below is usable with the same members, and each application with a behaviour of its own is
accepted. -/
theorem Passed.transfer
    (h : Passed sockopt cfg imix app)
    (hgroups : ∀ imixId, Below (members imix.groups) app (.imix imixId) →
      members imix'.groups imixId = members imix.groups imixId ∧
        Usable other imix'.groups imixId)
    (hbasic : ∀ b, Below (members imix.groups) app (.basic b) →
      BasicPassed sockopt' imix'.freed b) :
    Passed sockopt' other imix' app := by
  induction h with
  | basic app hpassed =>
      exact Passed.basic app (hbasic app (Below.self _))
  | group imixId husable hmembers ih =>
      obtain ⟨hsame, husable'⟩ := hgroups imixId (Below.self _)
      refine Passed.group imixId husable' ?_
      rw [hsame]
      exact fun m hm => ih m hm (fun i hi => hgroups i (Below.member hm hi))
        fun b hb => hbasic b (Below.member hm hb)

theorem Below.trans
    {apps : Nat → List ImixApp} {b : App}
    (h : Below apps app a)
    (h' : Below apps a b) :
    Below apps app b := by
  induction h with
  | self app => exact h'
  | member hmem hbelow ih => exact Below.member hmem (ih h')

/-- What is below an application depends on the groups below it only. -/
theorem Below.transfer
    {apps apps' : Nat → List ImixApp}
    (h : Below apps app a)
    (hgroups : ∀ imixId, Below apps app (.imix imixId) → apps' imixId = apps imixId) :
    Below apps' app a := by
  induction h with
  | self app => exact Below.self app
  | @member imixId m a hmem hbelow ih =>
      refine Below.member ?_ (ih fun i hi => hgroups i (Below.member hmem hi))
      rw [hgroups imixId (Below.self _)]
      exact hmem

theorem Held.transfer
    (h : Held cfg groups app)
    (hgroups : ∀ imixId, Below (members groups) app (.imix imixId) →
      members groups' imixId = members groups imixId ∧
        (groups' imixId).tigConfigured = true ∧ (groups' imixId).OwnedBy other) :
    Held other groups' app := by
  induction h with
  | basic app => exact Held.basic app
  | group imixId hconfigured howned hmembers ih =>
      obtain ⟨hsame, hconfigured', howned'⟩ := hgroups imixId (Below.self _)
      refine Held.group imixId hconfigured' howned' ?_
      rw [hsame]
      exact fun m hm => ih m hm fun i hi => hgroups i (Below.member hm hi)

theorem Held.group_below
    {imixId : Nat}
    (h : Held cfg groups app)
    (hbelow : Below (members groups) app (.imix imixId)) :
    (groups imixId).tigConfigured = true ∧ (groups imixId).OwnedBy cfg := by
  cases h.descend hbelow with
  | group _ hconfigured howned _ => exact ⟨hconfigured, howned⟩

/-- Only the port and the id of a test case matter for its groups. -/
theorem Held.of_ids
    (h : Held cfg groups app)
    (hport : other.tcEthPort = cfg.tcEthPort)
    (hid : other.tcId = cfg.tcId) :
    Held other groups app := by
  refine h.transfer fun imixId hbelow => ⟨rfl, (h.group_below hbelow).1, ?_⟩
  rw [ImixGroup.OwnedBy, hport, hid]
  exact (h.group_below hbelow).2

theorem Passed.of_ids
    (h : Passed sockopt cfg imix app)
    (hport : other.tcEthPort = cfg.tcEthPort)
    (hid : other.tcId = cfg.tcId) :
    Passed sockopt other imix app := by
  refine h.transfer (fun imixId hbelow => ⟨rfl, ?_⟩) fun b hbelow => ?_
  · cases h.descend hbelow with
    | group _ husable _ =>
        rw [Usable, ImixGroup.usedByOther, hport, hid]
        exact husable
  · cases h.descend hbelow with
    | basic _ hpassed => exact hpassed

theorem usedByOther_of_own
    {group : ImixGroup}
    (howned : group.OwnedBy other)
    (hport : other.tcEthPort = cfg.tcEthPort)
    (hid : other.tcId = cfg.tcId) :
    group.usedByOther cfg = false := by
  obtain ⟨-, hport', hid'⟩ := howned
  simp [ImixGroup.usedByOther, hport', hid', hport, hid]

theorem usedByOther_of_owned
    {group : ImixGroup}
    (howned : group.OwnedBy other)
    (hne : ¬ (other.tcEthPort = cfg.tcEthPort ∧ other.tcId = cfg.tcId)) :
    group.usedByOther cfg = true := by
  obtain ⟨hreferenced, hport, hid⟩ := howned
  rw [ImixGroup.usedByOther, hreferenced, hport, hid, Bool.true_and, Bool.or_eq_true, bne_iff_ne,
    bne_iff_ne]
  by_contra hboth
  rw [not_or, not_not, not_not] at hboth
  exact hne hboth

end Trees

/-! ## Validation -/

section Validation

variable {sockopt : Option Ipv4Sockopt} {cfg : TestCase} {imix : Imix}

theorem imixValidateCfg_eq
    (validate : App → Called Bool) (imixId : Nat) :
    imixValidateCfg cfg validate imix imixId =
      if Usable cfg imix.groups imixId then
        validateApps validate (members imix.groups imixId)
      else .ok false := by
  rw [imixValidateCfg]
  by_cases hid : imixId ≥ tpgImixMaxGroups
  · rw [if_pos hid, if_neg fun husable => absurd husable.1 (Nat.not_lt.2 hid)]
  · rw [if_neg hid]
    cases hconfigured : (imix.groups imixId).tigConfigured with
    | false =>
        rw [if_pos (by rfl), if_neg fun husable => ?_]
        rw [husable.2.1] at hconfigured
        cases hconfigured
    | true =>
        rw [if_neg (by decide)]
        cases hused : (imix.groups imixId).usedByOther cfg with
        | true =>
            rw [if_pos rfl, if_neg fun husable => ?_]
            rw [husable.2.2] at hused
            cases hused
        | false =>
            rw [if_neg Bool.false_ne_true,
              if_pos ⟨Nat.not_le.1 hid, hconfigured, hused⟩]
            rfl

/-- Of a test case, a validation looks at the port and the id only. -/
theorem validateCfg_of_ids
    {other : TestCase}
    (hport : other.tcEthPort = cfg.tcEthPort)
    (hid : other.tcId = cfg.tcId)
    (fuel : Nat) (app : App) :
    validateCfg sockopt other imix fuel app = validateCfg sockopt cfg imix fuel app := by
  induction fuel generalizing app with
  | zero =>
      cases app <;> rfl
  | succ fuel ih =>
      cases app with
      | basic app => rfl
      | max => rfl
      | imix imixId =>
          have hcalls : validateCfg sockopt other imix fuel = validateCfg sockopt cfg imix fuel :=
            funext ih
          rw [validateCfg, validateCfg, imixValidateCfg, imixValidateCfg, hcalls,
            ImixGroup.usedByOther, ImixGroup.usedByOther, hport, hid]

/-- What a call says of an application when it returns. -/
def Sound (sockopt : Option Ipv4Sockopt) (cfg : TestCase) (imix : Imix)
    (validate : App → Called Bool) : Prop :=
  ∀ app b, validate app = .ok b →
    (b = true ↔ Passed sockopt cfg imix app) ∧ Grounded sockopt cfg imix app

/-- By induction on the members. -/
theorem Sound.validateApps
    {validate : App → Called Bool} {apps : List ImixApp} {b : Bool}
    (h : Sound sockopt cfg imix validate)
    (hrun : ImixGroups.validateApps validate apps = .ok b) :
    (b = true ↔ ∀ m ∈ apps, Passed sockopt cfg imix m.iaApp) ∧
      ∀ before m after, apps = before ++ m :: after →
        (∀ earlier ∈ before, Passed sockopt cfg imix earlier.iaApp) →
          Grounded sockopt cfg imix m.iaApp := by
  induction apps generalizing b with
  | nil =>
      obtain rfl := Except.ok.inj hrun
      refine ⟨⟨fun _ m hmem => absurd hmem List.not_mem_nil, fun _ => rfl⟩, ?_⟩
      intro before m after hsplit
      simp at hsplit
  | cons first apps ih =>
      obtain ⟨passed, hfirst, hrest⟩ := bind_returns hrun
      obtain ⟨hpassed, hgrounded⟩ := h _ _ hfirst
      cases passed with
      | false =>
          obtain rfl := Except.ok.inj hrest
          refine ⟨⟨fun hfalse => absurd hfalse Bool.false_ne_true, fun hall => ?_⟩, ?_⟩
          · exact hpassed.2 (hall first List.mem_cons_self)
          · intro before m after hsplit hbefore
            cases before with
            | nil =>
                obtain ⟨rfl, -⟩ := List.cons.inj hsplit
                exact hgrounded
            | cons earlier before =>
                obtain ⟨rfl, -⟩ := List.cons.inj hsplit
                have hfalse := hpassed.2 (hbefore _ List.mem_cons_self)
                cases hfalse
      | true =>
          obtain ⟨hall, hsplits⟩ := ih hrest
          have hpass := hpassed.1 rfl
          refine ⟨?_, ?_⟩
          · rw [hall, List.forall_mem_cons]
            exact ⟨fun hmembers => ⟨hpass, hmembers⟩, fun hmembers => hmembers.2⟩
          · intro before m after hsplit hbefore
            cases before with
            | nil =>
                obtain ⟨rfl, -⟩ := List.cons.inj hsplit
                exact hgrounded
            | cons earlier before =>
                obtain ⟨-, hsplit⟩ := List.cons.inj hsplit
                exact hsplits before m after hsplit fun e he =>
                  hbefore e (List.mem_cons_of_mem _ he)

/-- An application with a behaviour of its own is validated at any depth. -/
theorem validateCfg_basic
    (fuel : Nat) (app : BasicApp) :
    validateCfg sockopt cfg imix fuel (.basic app) =
      if app.readsFreed imix.freed then .error .freed
      else .ok (basicValidateCfg sockopt app) := by
  cases fuel <;> rfl

theorem validateCfg_basic_sound
    {fuel : Nat} {app : BasicApp} {b : Bool}
    (hrun : validateCfg sockopt cfg imix fuel (.basic app) = .ok b) :
    (b = true ↔ Passed sockopt cfg imix (.basic app)) ∧
      Grounded sockopt cfg imix (.basic app) := by
  rw [validateCfg_basic] at hrun
  cases hlive : app.readsFreed imix.freed with
  | true =>
      rw [hlive, if_pos rfl] at hrun
      cases hrun
  | false =>
      rw [hlive, if_neg Bool.false_ne_true] at hrun
      obtain rfl := Except.ok.inj hrun
      refine ⟨⟨fun hvalid => Passed.basic app ⟨hlive, hvalid⟩, fun hpassed => ?_⟩,
        Grounded.basic app hlive⟩
      cases hpassed with
      | basic _ hbasic => exact hbasic.2

/-- By induction on the number: a validation that returns says whether all below is accepted. -/
theorem validateCfg_sound
    (fuel : Nat) :
    Sound sockopt cfg imix (validateCfg sockopt cfg imix fuel) := by
  induction fuel with
  | zero =>
      intro app b hrun
      cases app with
      | basic app => exact validateCfg_basic_sound hrun
      | imix imixId => cases hrun
      | max => cases hrun
  | succ fuel ih =>
      intro app b hrun
      cases app with
      | basic app => exact validateCfg_basic_sound hrun
      | imix imixId =>
          rw [validateCfg, imixValidateCfg_eq] at hrun
          by_cases husable : Usable cfg imix.groups imixId
          · rw [if_pos husable] at hrun
            obtain ⟨hall, hsplits⟩ := ih.validateApps hrun
            refine ⟨?_, Grounded.group imixId hsplits⟩
            rw [hall]
            exact ⟨Passed.group imixId husable, fun | .group _ _ hmembers => hmembers⟩
          · rw [if_neg husable] at hrun
            obtain rfl := Except.ok.inj hrun
            refine ⟨⟨fun hfalse => absurd hfalse Bool.false_ne_true, fun hpassed => ?_⟩,
              Grounded.refused imixId husable⟩
            cases hpassed with
            | group _ h _ => exact absurd h husable
      | max => cases hrun

/-- The members of a group, as far as they are validated. -/
theorem ends_validateApps
    {apps : List ImixApp}
    (hmembers : ∀ before m after, apps = before ++ m :: after →
      (∀ earlier ∈ before, Passed sockopt cfg imix earlier.iaApp) →
        ∃ b, Ends (fun fuel => validateCfg sockopt cfg imix fuel m.iaApp) b) :
    ∃ b, Ends (fun fuel => validateApps (validateCfg sockopt cfg imix fuel) apps) b := by
  induction apps with
  | nil =>
      exact ⟨true, ends_of_forall fun _ => rfl⟩
  | cons first apps ih =>
      obtain ⟨passed, hfirst⟩ := hmembers [] first apps rfl fun _ he => absurd he List.not_mem_nil
      obtain ⟨fuel, hrun⟩ := hfirst.ok
      cases passed with
      | false =>
          exact ⟨false, hfirst.bind (ends_of_forall fun _ => rfl)⟩
      | true =>
          have hpass := (validateCfg_sound fuel _ _ hrun).1.1 rfl
          obtain ⟨b, hrest⟩ := ih fun before m after hsplit hbefore =>
            hmembers (first :: before) m after (by rw [hsplit]; rfl)
              (List.forall_mem_cons.2 ⟨hpass, hbefore⟩)
          exact ⟨b, hfirst.bind hrest⟩

theorem Grounded.ends
    {app : App}
    (h : Grounded sockopt cfg imix app) :
    ∃ b, Ends (fun fuel => validateCfg sockopt cfg imix fuel app) b := by
  induction h with
  | basic app hlive =>
      refine ⟨basicValidateCfg sockopt app, ends_of_forall fun fuel => ?_⟩
      rw [validateCfg_basic, hlive]
      rfl
  | refused imixId hrefused =>
      refine ⟨false, ends_of_succ (ends_of_forall fun fuel => ?_)⟩
      rw [validateCfg, imixValidateCfg_eq, if_neg hrefused]
  | group imixId hmembers ih =>
      by_cases husable : Usable cfg imix.groups imixId
      · obtain ⟨b, hb⟩ := ends_validateApps ih
        refine ⟨b, ends_of_succ ?_⟩
        simp only [validateCfg, imixValidateCfg_eq, if_pos husable]
        exact hb
      · refine ⟨false, ends_of_succ (ends_of_forall fun fuel => ?_)⟩
        rw [validateCfg, imixValidateCfg_eq, if_neg husable]

/-- A validation returns if and only if going down comes to an end. -/
theorem validateCfg_iff
    {app : App} :
    (∃ fuel b, validateCfg sockopt cfg imix fuel app = .ok b) ↔
      Grounded sockopt cfg imix app := by
  constructor
  · rintro ⟨fuel, b, hrun⟩
    exact (validateCfg_sound fuel app b hrun).2
  · intro hgrounded
    obtain ⟨b, hends⟩ := hgrounded.ends
    obtain ⟨fuel, hrun⟩ := hends.ok
    exact ⟨fuel, b, hrun⟩

theorem Passed.grounded
    {app : App}
    (h : Passed sockopt cfg imix app) :
    Grounded sockopt cfg imix app := by
  induction h with
  | basic app hpassed =>
      exact Grounded.basic app hpassed.1
  | group imixId husable hmembers ih =>
      refine Grounded.group imixId fun before m after hsplit _ => ih m ?_
      rw [hsplit]
      exact List.mem_append_right _ List.mem_cons_self

end Validation

/-! ## Adding and deleting -/

section Changes

variable {sockopt sockopt' : Option Ipv4Sockopt} {cfg other : TestCase} {imix imix' : Imix}
variable {groups groups' : Groups}

/-- A change for a test case: it leaves alone what another one uses. -/
structure Frame (cfg : TestCase) (groups groups' : Groups) : Prop where
  apps : members groups' = members groups
  configured : ∀ imixId, (groups' imixId).tigConfigured = (groups imixId).tigConfigured
  others : ∀ imixId, (groups imixId).usedByOther cfg = true → groups' imixId = groups imixId
  free : ∀ imixId, (groups imixId).usedByOther cfg = false →
    (groups' imixId).usedByOther cfg = false

/-- A change that keeps what the test case owns. -/
structure Marks (cfg : TestCase) (groups groups' : Groups) : Prop extends
    Frame cfg groups groups' where
  keeps : ∀ imixId, (groups imixId).OwnedBy cfg → (groups' imixId).OwnedBy cfg

theorem Frame.refl
    (cfg : TestCase) (groups : Groups) :
    Frame cfg groups groups :=
  ⟨rfl, fun _ => rfl, fun _ _ => rfl, fun _ h => h⟩

theorem Frame.trans
    {groups'' : Groups}
    (h : Frame cfg groups groups')
    (h' : Frame cfg groups' groups'') :
    Frame cfg groups groups'' := by
  refine ⟨h'.apps.trans h.apps, fun i => (h'.configured i).trans (h.configured i),
    fun i hused => ?_, fun i hfree => h'.free i (h.free i hfree)⟩
  have hsame := h.others i hused
  rw [← hsame] at hused
  exact (h'.others i hused).trans hsame

theorem Marks.refl
    (cfg : TestCase) (groups : Groups) :
    Marks cfg groups groups :=
  ⟨Frame.refl cfg groups, fun _ h => h⟩

theorem Marks.trans
    {groups'' : Groups}
    (h : Marks cfg groups groups')
    (h' : Marks cfg groups' groups'') :
    Marks cfg groups groups'' :=
  ⟨h.toFrame.trans h'.toFrame, fun i hi => h'.keeps i (h.keeps i hi)⟩

theorem Frame.usable
    {imixId : Nat}
    (h : Frame cfg groups groups')
    (husable : Usable cfg groups imixId) :
    Usable cfg groups' imixId := by
  obtain ⟨hid, hconfigured, hfree⟩ := husable
  exact ⟨hid, by rw [h.configured, hconfigured], h.free imixId hfree⟩

/-- Another test case keeps what it holds. -/
theorem Frame.held
    {app : App}
    (h : Frame cfg groups groups')
    (hheld : Held other groups app)
    (hne : ¬ (other.tcEthPort = cfg.tcEthPort ∧ other.tcId = cfg.tcId)) :
    Held other groups' app := by
  refine hheld.transfer fun imixId hbelow => ?_
  obtain ⟨hconfigured, howned⟩ := hheld.group_below hbelow
  have hsame := h.others imixId (usedByOther_of_owned howned hne)
  rw [members, members, hsame]
  exact ⟨rfl, hconfigured, howned⟩

/-- What is accepted is so after a change for the test case, where its applications are. -/
theorem Passed.frame
    {app : App}
    (h : Passed sockopt cfg imix app)
    (hframe : Frame cfg imix.groups imix'.groups)
    (hbasic : ∀ b, Below (members imix.groups) app (.basic b) →
      BasicPassed sockopt' imix'.freed b) :
    Passed sockopt' cfg imix' app := by
  refine h.transfer (fun imixId hbelow => ⟨by rw [hframe.apps], ?_⟩) hbasic
  cases h.descend hbelow with
  | group _ husable _ => exact hframe.usable husable

theorem Takeable.frame
    {app : App}
    (h : Takeable cfg groups app)
    (hframe : Frame cfg groups groups') :
    Takeable cfg groups' app := by
  induction h with
  | basic app =>
      exact Takeable.basic app
  | group imixId husable hmembers ih =>
      refine Takeable.group imixId (hframe.usable husable) ?_
      rw [hframe.apps]
      exact ih

theorem Held.marks
    {app : App}
    (h : Held cfg groups app)
    (hmarks : Marks cfg groups groups') :
    Held cfg groups' app := by
  refine h.transfer fun imixId hbelow => ?_
  obtain ⟨hconfigured, howned⟩ := h.group_below hbelow
  refine ⟨by rw [hmarks.apps], ?_, hmarks.keeps imixId howned⟩
  rw [hmarks.configured, hconfigured]

/-- A group that is free is taken. -/
theorem marks_reference
    {imixId : Nat}
    (hfree : (groups imixId).usedByOther cfg = false) :
    Marks cfg groups (reference cfg groups imixId) ∧
      (reference cfg groups imixId imixId).OwnedBy cfg := by
  have howned : (reference cfg groups imixId imixId).OwnedBy cfg := by
    rw [reference, Function.update_self]
    exact ⟨rfl, rfl, rfl⟩
  refine ⟨⟨⟨funext fun i => ?_, fun i => ?_, fun i hused => ?_, fun i hi => ?_⟩, fun i hi => ?_⟩,
    howned⟩
  all_goals by_cases hsame : i = imixId
  · rw [hsame, members, members, reference, Function.update_self]
  · rw [members, members, reference, Function.update_of_ne hsame]
  · rw [hsame, reference, Function.update_self]
  · rw [reference, Function.update_of_ne hsame]
  · rw [hsame, hfree] at hused
    cases hused
  · rw [reference, Function.update_of_ne hsame]
  · rw [hsame, reference, Function.update_self]
    simp [ImixGroup.usedByOther]
  · rw [reference, Function.update_of_ne hsame, hi]
  · rw [hsame]
    exact howned
  · rw [reference, Function.update_of_ne hsame]
    exact hi

theorem members_unreference
    (groups : Groups) (imixId : Nat) :
    members (unreference groups imixId) = members groups := by
  funext i
  by_cases hsame : i = imixId
  · rw [hsame, members, members, unreference, Function.update_self]
  · rw [members, members, unreference, Function.update_of_ne hsame]

/-- The same for giving it back. -/
theorem frame_unreference
    {imixId : Nat}
    (hfree : (groups imixId).usedByOther cfg = false) :
    Frame cfg groups (unreference groups imixId) := by
  refine ⟨members_unreference groups imixId, fun i => ?_, fun i hused => ?_, fun i hi => ?_⟩
  all_goals by_cases hsame : i = imixId
  · rw [hsame, unreference, Function.update_self]
  · rw [unreference, Function.update_of_ne hsame]
  · rw [hsame, hfree] at hused
    cases hused
  · rw [unreference, Function.update_of_ne hsame]
  · rw [hsame, unreference, Function.update_self]
    rfl
  · rw [unreference, Function.update_of_ne hsame, hi]

/-- Adding an application marks its groups, and holds it. -/
def Adds (cfg : TestCase) (add : Imix → App → Called Imix) : Prop :=
  ∀ imix app imix', Takeable cfg imix.groups app → add imix app = .ok imix' →
    Marks cfg imix.groups imix'.groups ∧ imix'.freed = imix.freed ∧ Held cfg imix'.groups app

/-- The members of a group, one after the other. -/
theorem Adds.changeApps
    {add : Imix → App → Called Imix} {apps : List ImixApp}
    (h : Adds cfg add)
    (htake : ∀ m ∈ apps, Takeable cfg imix.groups m.iaApp)
    (hrun : ImixGroups.changeApps add imix apps = .ok imix') :
    Marks cfg imix.groups imix'.groups ∧ imix'.freed = imix.freed ∧
      ∀ m ∈ apps, Held cfg imix'.groups m.iaApp := by
  induction apps generalizing imix with
  | nil =>
      obtain rfl := Except.ok.inj hrun
      exact ⟨Marks.refl cfg _, rfl, fun _ hmem => absurd hmem List.not_mem_nil⟩
  | cons m apps ih =>
      obtain ⟨next, hfirst, hrest⟩ := bind_returns hrun
      rw [List.forall_mem_cons] at htake
      obtain ⟨hmarks, hfreed, hheld⟩ := h _ _ _ htake.1 hfirst
      obtain ⟨hmarks', hfreed', hheld'⟩ :=
        ih (fun m' hm' => (htake.2 m' hm').frame hmarks.toFrame) hrest
      exact ⟨hmarks.trans hmarks', hfreed'.trans hfreed,
        List.forall_mem_cons.2 ⟨hheld.marks hmarks', hheld'⟩⟩

/-- By induction on the number: an application that can be taken is held once it is added. -/
theorem addCfg_spec
    (fuel : Nat) :
    Adds cfg (addCfg cfg fuel) := by
  induction fuel with
  | zero =>
      intro imix app imix' htake hrun
      cases app with
      | basic app =>
          obtain rfl := Except.ok.inj hrun
          exact ⟨Marks.refl cfg _, rfl, Held.basic app⟩
      | imix imixId => cases hrun
      | max => cases hrun
  | succ fuel ih =>
      intro imix app imix' htake hrun
      cases htake with
      | basic app =>
          obtain rfl := Except.ok.inj hrun
          exact ⟨Marks.refl cfg _, rfl, Held.basic app⟩
      | group imixId husable hmembers =>
          obtain ⟨next, hmembersRun, hmark⟩ := bind_returns hrun
          obtain rfl := Except.ok.inj hmark
          obtain ⟨hmarks, hfreed, hheld⟩ := ih.changeApps hmembers hmembersRun
          obtain ⟨hmarks', howned⟩ :=
            marks_reference (hmarks.free imixId husable.2.2)
          have hall := hmarks.trans hmarks'
          refine ⟨hall, hfreed, Held.group imixId ?_ howned ?_⟩
          · rw [hall.configured, husable.2.1]
          · rw [hall.apps]
            exact fun m hmem => (hheld m hmem).marks hmarks'

end Changes

/-! ## What deleting gives back -/

section Deleting

/-- A text is freed, and a group is given back. -/
inductive Token
  | text (block : Nat)
  | group (imixId : Nat)
deriving DecidableEq, Repr

def giveBack (imix : Imix) : Token → Called Imix
  | .text block =>
      if block ∈ imix.freed then .error .freed
      else .ok { imix with freed := block :: imix.freed }
  | .group imixId =>
      if (imix.groups imixId).tigReferenced then
        .ok { imix with groups := unreference imix.groups imixId }
      else .error .assertion

def Available (imix : Imix) : Token → Prop
  | .text block => block ∉ imix.freed
  | .group imixId => (imix.groups imixId).tigReferenced = true

/-- What deleting the application gives back, in this order. -/
inductive Gathers (apps : Nat → List ImixApp) : App → List Token → Prop
  | basic (app : BasicApp) :
      Gathers apps (.basic app) (app.texts.map fun text => .text text.block)
  | group (imixId : Nat) (tokens : ImixApp → List Token)
      (hmembers : ∀ m ∈ apps imixId, Gathers apps m.iaApp (tokens m)) :
      Gathers apps (.imix imixId) ((apps imixId).flatMap tokens ++ [.group imixId])

variable {cfg other : TestCase} {imix imix' : Imix} {groups : Groups}
variable {apps : Nat → List ImixApp} {app : App} {tokens : List Token} {t t' : Token}

theorem giveBack_ok :
    (∃ next, giveBack imix t = .ok next) ↔ Available imix t := by
  cases t with
  | text block =>
      by_cases hfreed : block ∈ imix.freed
      · simp [giveBack, Available, hfreed]
      · simp [giveBack, Available, hfreed]
  | group imixId =>
      cases hreferenced : (imix.groups imixId).tigReferenced <;>
        simp [giveBack, Available, hreferenced]

/-- What is given back is not available any more, and all else stays as it was. -/
theorem available_giveBack
    (hrun : giveBack imix t = .ok imix') :
    Available imix' t' ↔ Available imix t' ∧ t' ≠ t := by
  cases t with
  | text block =>
      rw [giveBack] at hrun
      split at hrun
      next => cases hrun
      next =>
        obtain rfl := Except.ok.inj hrun
        cases t' with
        | text other => simp [Available, and_comm]
        | group imixId => simp [Available]
  | group imixId =>
      rw [giveBack] at hrun
      split at hrun
      next =>
        obtain rfl := Except.ok.inj hrun
        cases t' with
        | text block => simp [Available]
        | group other =>
            by_cases hsame : other = imixId
            · simp [Available, hsame, unreference]
            · simp [Available, hsame, unreference]
      next => cases hrun

theorem frame_giveBack
    (hrun : giveBack imix t = .ok imix')
    (hfree : ∀ imixId, t = .group imixId → (imix.groups imixId).usedByOther cfg = false) :
    Frame cfg imix.groups imix'.groups := by
  cases t with
  | text block =>
      rw [giveBack] at hrun
      split at hrun
      next => cases hrun
      next =>
        obtain rfl := Except.ok.inj hrun
        exact Frame.refl cfg _
  | group imixId =>
      rw [giveBack] at hrun
      split at hrun
      next =>
        obtain rfl := Except.ok.inj hrun
        exact frame_unreference (hfree imixId rfl)
      next => cases hrun

/-- By induction on what is given back: it has to be there, and once. -/
theorem foldlM_giveBack_ok :
    (∃ last, tokens.foldlM giveBack imix = .ok last) ↔
      tokens.Nodup ∧ ∀ t ∈ tokens, Available imix t := by
  induction tokens generalizing imix with
  | nil =>
      exact ⟨fun _ => ⟨List.nodup_nil, fun _ h => absurd h List.not_mem_nil⟩, fun _ => ⟨imix, rfl⟩⟩
  | cons t tokens ih =>
      rw [List.nodup_cons, List.forall_mem_cons]
      constructor
      · rintro ⟨last, hrun⟩
        obtain ⟨next, hfirst, hrest⟩ := bind_returns hrun
        obtain ⟨hnodup, havailable⟩ := ih.1 ⟨last, hrest⟩
        simp only [available_giveBack hfirst] at havailable
        exact ⟨⟨fun hmem => (havailable t hmem).2 rfl, hnodup⟩, giveBack_ok.1 ⟨next, hfirst⟩,
          fun t' ht' => (havailable t' ht').1⟩
      · rintro ⟨⟨hnew, hnodup⟩, hfirst, hrest⟩
        obtain ⟨next, hrun⟩ := giveBack_ok.2 hfirst
        obtain ⟨last, hlast⟩ := (@ih next).2 ⟨hnodup, fun t' ht' =>
          (available_giveBack hrun).2 ⟨hrest t' ht', fun heq => hnew (heq ▸ ht')⟩⟩
        refine ⟨last, ?_⟩
        rw [List.foldlM_cons, hrun]
        exact hlast

theorem available_foldlM
    (hrun : tokens.foldlM giveBack imix = .ok imix') :
    Available imix' t ↔ Available imix t ∧ t ∉ tokens := by
  induction tokens generalizing imix with
  | nil =>
      obtain rfl := Except.ok.inj hrun
      simp
  | cons first tokens ih =>
      obtain ⟨next, hfirst, hrest⟩ := bind_returns hrun
      rw [ih hrest, available_giveBack hfirst, List.mem_cons, not_or, and_assoc]

theorem frame_foldlM
    (hrun : tokens.foldlM giveBack imix = .ok imix')
    (hfree : ∀ imixId, .group imixId ∈ tokens →
      (imix.groups imixId).usedByOther cfg = false) :
    Frame cfg imix.groups imix'.groups := by
  induction tokens generalizing imix with
  | nil =>
      obtain rfl := Except.ok.inj hrun
      exact Frame.refl cfg _
  | cons first tokens ih =>
      obtain ⟨next, hfirst, hrest⟩ := bind_returns hrun
      have hframe : Frame cfg imix.groups next.groups :=
        frame_giveBack hfirst fun imixId heq => hfree imixId (heq ▸ List.mem_cons_self)
      refine hframe.trans (ih hrest fun imixId hmem => hframe.free imixId ?_)
      exact hfree imixId (List.mem_cons_of_mem _ hmem)

theorem members_giveBack
    (hrun : giveBack imix t = .ok imix') :
    members imix'.groups = members imix.groups := by
  cases t with
  | text block =>
      rw [giveBack] at hrun
      split at hrun
      next => cases hrun
      next =>
        obtain rfl := Except.ok.inj hrun
        rfl
  | group imixId =>
      rw [giveBack] at hrun
      split at hrun
      next =>
        obtain rfl := Except.ok.inj hrun
        exact members_unreference imix.groups imixId
      next => cases hrun

theorem members_foldlM
    (hrun : tokens.foldlM giveBack imix = .ok imix') :
    members imix'.groups = members imix.groups := by
  induction tokens generalizing imix with
  | nil =>
      obtain rfl := Except.ok.inj hrun
      rfl
  | cons first tokens ih =>
      obtain ⟨next, hfirst, hrest⟩ := bind_returns hrun
      exact (ih hrest).trans (members_giveBack hfirst)

theorem basicDeleteCfg_eq
    (imix : Imix) (app : BasicApp) :
    basicDeleteCfg imix app =
      (app.texts.map fun text => Token.text text.block).foldlM giveBack imix := by
  rw [List.foldlM_map]
  rfl

theorem deleteCfg_basic
    (fuel : Nat) (imix : Imix) (app : BasicApp) :
    deleteCfg fuel imix (.basic app) = basicDeleteCfg imix app := by
  cases fuel <;> rfl

/-- The members of a group are deleted one after the other. -/
theorem changeApps_gathers
    {delete : Imix → App → Called Imix} {list : List ImixApp} {tokensOf : ImixApp → List Token}
    (hdelete : ∀ m ∈ list, ∀ next last, members next.groups = apps →
      delete next m.iaApp = .ok last → (tokensOf m).foldlM giveBack next = .ok last)
    (hmembers : members imix.groups = apps)
    (hrun : changeApps delete imix list = .ok imix') :
    (list.flatMap tokensOf).foldlM giveBack imix = .ok imix' := by
  induction list generalizing imix with
  | nil =>
      exact hrun
  | cons m list ih =>
      rw [List.forall_mem_cons] at hdelete
      obtain ⟨next, hfirst, hrest⟩ := bind_returns hrun
      have hgive := hdelete.1 imix next hmembers hfirst
      rw [List.flatMap_cons, List.foldlM_append, hgive]
      exact ih hdelete.2 ((members_foldlM hgive).trans hmembers) hrest

theorem ends_changeApps_gathers
    {list : List ImixApp} {tokensOf : ImixApp → List Token}
    (hdelete : ∀ m ∈ list, ∀ next last, members next.groups = apps →
      (tokensOf m).foldlM giveBack next = .ok last →
        Ends (fun fuel => deleteCfg fuel next m.iaApp) last)
    (hmembers : members imix.groups = apps)
    (hrun : (list.flatMap tokensOf).foldlM giveBack imix = .ok imix') :
    Ends (fun fuel => changeApps (deleteCfg fuel) imix list) imix' := by
  induction list generalizing imix with
  | nil =>
      exact ends_of_forall fun _ => hrun
  | cons m list ih =>
      rw [List.forall_mem_cons] at hdelete
      rw [List.flatMap_cons, List.foldlM_append] at hrun
      obtain ⟨next, hfirst, hrest⟩ := bind_returns hrun
      exact (hdelete.1 imix next hmembers hfirst).bind
        (ih hdelete.2 ((members_foldlM hfirst).trans hmembers) hrest)

/-- A deletion that returns has given back what it gathers. -/
theorem Gathers.giveBack
    {fuel : Nat}
    (h : Gathers apps app tokens)
    (hmembers : members imix.groups = apps)
    (hrun : deleteCfg fuel imix app = .ok imix') :
    tokens.foldlM ImixGroups.giveBack imix = .ok imix' := by
  induction h generalizing imix imix' fuel with
  | basic app =>
      rw [deleteCfg_basic, basicDeleteCfg_eq] at hrun
      exact hrun
  | group imixId tokensOf hgathers ih =>
      cases fuel with
      | zero => cases hrun
      | succ fuel =>
          obtain ⟨next, hfirst, hlast⟩ := bind_returns hrun
          have hlist : (imix.groups imixId).tigApps = apps imixId := congrFun hmembers imixId
          rw [hlist] at hfirst
          have hgive := changeApps_gathers (fun m hm _ _ hsame => ih m hm hsame) hmembers hfirst
          have hgroup : ImixGroups.giveBack next (.group imixId) = .ok imix' := hlast
          rw [List.foldlM_append, hgive]
          show [Token.group imixId].foldlM ImixGroups.giveBack next = _
          rw [List.foldlM_cons, hgroup]
          rfl

theorem Gathers.ends
    (h : Gathers apps app tokens)
    (hmembers : members imix.groups = apps)
    (hrun : tokens.foldlM ImixGroups.giveBack imix = .ok imix') :
    Ends (fun fuel => deleteCfg fuel imix app) imix' := by
  induction h generalizing imix imix' with
  | basic app =>
      refine ends_of_forall fun fuel => ?_
      rw [deleteCfg_basic, basicDeleteCfg_eq, hrun]
  | group imixId tokensOf hgathers ih =>
      rw [List.foldlM_append] at hrun
      obtain ⟨next, hfirst, hlast⟩ := bind_returns hrun
      have hlist : (imix.groups imixId).tigApps = apps imixId := congrFun hmembers imixId
      refine ends_of_succ ?_
      simp only [deleteCfg, imixDeleteCfg, hlist]
      refine (ends_changeApps_gathers (fun m hm _ _ hsame => ih m hm hsame) hmembers
        hfirst).bind (ends_of_forall fun _ => ?_)
      simpa [ImixGroups.giveBack] using hlast

theorem Held.gathers
    (h : Held cfg groups app) :
    ∃ tokens, Gathers (members groups) app tokens := by
  induction h with
  | basic app =>
      exact ⟨_, Gathers.basic app⟩
  | group imixId hconfigured howned hmembers ih =>
      choose! tokens htokens using ih
      exact ⟨_, Gathers.group imixId tokens htokens⟩

theorem Gathers.mem_group
    {imixId : Nat}
    (h : Gathers apps app tokens)
    (hmem : .group imixId ∈ tokens) :
    Below apps app (.imix imixId) := by
  induction h with
  | basic app =>
      simp at hmem
  | group other tokensOf hgathers ih =>
      rcases List.mem_append.1 hmem with hmember | hlast
      · obtain ⟨m, hm, hin⟩ := List.mem_flatMap.1 hmember
        exact Below.member hm (ih m hm hin)
      · obtain rfl := Token.group.inj (List.mem_singleton.1 hlast)
        exact Below.self _

/-- The application has a text in the allocation, which deleting it frees. -/
def Frees (apps : Nat → List ImixApp) (app : App) (block : Nat) : Prop :=
  ∃ b, Below apps app (.basic b) ∧ ∃ text ∈ b.texts, text.block = block

/-- The validation of the application looks into the allocation. -/
def LooksInto (apps : Nat → List ImixApp) (app : App) (block : Nat) : Prop :=
  ∃ b, Below apps app (.basic b) ∧ ∃ text ∈ b.readText, text.block = block

theorem Gathers.mem_text
    {block : Nat}
    (h : Gathers apps app tokens) :
    .text block ∈ tokens ↔ Frees apps app block := by
  induction h with
  | basic app =>
      constructor
      · intro hmem
        obtain ⟨text, htext, heq⟩ := List.mem_map.1 hmem
        exact ⟨app, Below.self _, text, htext, Token.text.inj heq⟩
      · rintro ⟨b, hbelow, text, htext, rfl⟩
        cases hbelow
        exact List.mem_map.2 ⟨text, htext, rfl⟩
  | group imixId tokensOf hgathers ih =>
      rw [List.mem_append, List.mem_flatMap]
      constructor
      · rintro (⟨m, hm, hin⟩ | hlast)
        · obtain ⟨b, hbelow, htext⟩ := (ih m hm).1 hin
          exact ⟨b, Below.member hm hbelow, htext⟩
        · simp at hlast
      · rintro ⟨b, hbelow, htext⟩
        cases hbelow with
        | member hm hbelow => exact Or.inl ⟨_, hm, (ih _ hm).2 ⟨b, hbelow, htext⟩⟩

/-- What deleting the application gives back is there, once. -/
def Deletable (imix : Imix) (app : App) : Prop :=
  ∃ tokens, Gathers (members imix.groups) app tokens ∧ tokens.Nodup ∧
    ∀ t ∈ tokens, Available imix t

/-- What a deletion has done when it returns. -/
structure Deleted (cfg : TestCase) (app : App) (imix imix' : Imix) : Prop where
  frame : Frame cfg imix.groups imix'.groups
  freed : ∀ block, block ∈ imix'.freed ↔
    block ∈ imix.freed ∨ Frees (members imix.groups) app block

theorem Deletable.ends
    (h : Deletable imix app) :
    ∃ last, Ends (fun fuel => deleteCfg fuel imix app) last := by
  obtain ⟨tokens, hgathers, hthere⟩ := h
  obtain ⟨last, hrun⟩ := foldlM_giveBack_ok.2 hthere
  exact ⟨last, hgathers.ends rfl hrun⟩

theorem Held.deleted
    {fuel : Nat}
    (h : Held other imix.groups app)
    (hport : other.tcEthPort = cfg.tcEthPort)
    (hid : other.tcId = cfg.tcId)
    (hrun : deleteCfg fuel imix app = .ok imix') :
    Deleted cfg app imix imix' := by
  obtain ⟨tokens, hgathers⟩ := h.gathers
  have hgive := hgathers.giveBack rfl hrun
  refine ⟨frame_foldlM hgive fun imixId hmem => ?_, fun block => ?_⟩
  · exact usedByOther_of_own (h.group_below (hgathers.mem_group hmem)).2 hport hid
  · have hiff := @available_foldlM _ _ _ (.text block) hgive
    rw [hgathers.mem_text] at hiff
    rw [← not_iff_not, not_or]
    exact hiff

end Deleting

/-! ## Test cases -/

section Verdicts

variable {sockopts : Nat → Nat → Option Ipv4Sockopt} {devCount fuel : Nat}
variable {imix : Imix} {cfg : TestCase} {b : Bool}

/-- What the validation asks of a test case. -/
structure Acceptable (sockopts : Nat → Nat → Option Ipv4Sockopt) (devCount : Nat) (imix : Imix)
    (cfg : TestCase) : Prop where
  checks : checksBefore devCount cfg = true
  app : Passed (sockopts cfg.tcEthPort cfg.tcId) cfg imix cfg.tcApp
  side : validateSide cfg = true

/-- Going down from the application of a test case comes to an end, where the validation gets to
it. -/
def DefinitionGrounded (sockopts : Nat → Nat → Option Ipv4Sockopt) (devCount : Nat) (imix : Imix)
    (cfg : TestCase) : Prop :=
  checksBefore devCount cfg = true → cfg.tcApp ≠ .max →
    Grounded (sockopts cfg.tcEthPort cfg.tcId) cfg imix cfg.tcApp

theorem testMgmtValidateApp_of_ne
    (happ : cfg.tcApp ≠ .max) :
    testMgmtValidateApp sockopts fuel imix cfg =
      validateCfg (sockopts cfg.tcEthPort cfg.tcId) cfg imix fuel cfg.tcApp := by
  rw [testMgmtValidateApp]
  split
  next hmax => exact absurd hmax happ
  next => rfl

theorem Passed.ne_max
    {sockopt : Option Ipv4Sockopt} {app : App}
    (h : Passed sockopt cfg imix app) :
    app ≠ .max := by
  rintro rfl
  cases h

/-- A validation that returns says whether the test case is acceptable. -/
theorem testMgmtValidateTestCase_sound
    (hrun : testMgmtValidateTestCase sockopts devCount fuel imix cfg = .ok b) :
    (b = true ↔ Acceptable sockopts devCount imix cfg) ∧
      DefinitionGrounded sockopts devCount imix cfg := by
  rw [testMgmtValidateTestCase] at hrun
  cases hchecks : checksBefore devCount cfg with
  | false =>
      rw [hchecks, if_pos (by rfl)] at hrun
      obtain rfl := Except.ok.inj hrun
      refine ⟨⟨nofun, fun h => ?_⟩, fun htrue => ?_⟩
      · rw [h.checks] at hchecks
        cases hchecks
      · rw [htrue] at hchecks
        cases hchecks
  | true =>
      rw [hchecks, if_neg (by decide)] at hrun
      obtain ⟨passed, happ, hside⟩ := bind_returns hrun
      by_cases hmax : cfg.tcApp = .max
      · rw [testMgmtValidateApp, hmax] at happ
        obtain rfl := Except.ok.inj happ
        obtain rfl := Except.ok.inj hside
        exact ⟨⟨nofun, fun h => absurd hmax h.app.ne_max⟩, fun _ hne => absurd hmax hne⟩
      · rw [testMgmtValidateApp_of_ne hmax] at happ
        obtain ⟨hpassed, hgrounded⟩ := validateCfg_sound fuel _ _ happ
        refine ⟨?_, fun _ _ => hgrounded⟩
        cases passed with
        | false =>
            obtain rfl := Except.ok.inj hside
            exact ⟨nofun, fun h => hpassed.2 h.app⟩
        | true =>
            obtain rfl := Except.ok.inj hside
            exact ⟨fun hb => ⟨hchecks, hpassed.1 rfl, hb⟩, fun h => h.side⟩

theorem DefinitionGrounded.ends
    (h : DefinitionGrounded sockopts devCount imix cfg) :
    ∃ b, Ends (fun fuel => testMgmtValidateTestCase sockopts devCount fuel imix cfg) b := by
  cases hchecks : checksBefore devCount cfg with
  | false =>
      refine ⟨false, ends_of_forall fun fuel => ?_⟩
      rw [testMgmtValidateTestCase, hchecks]
      rfl
  | true =>
      have happ : ∃ passed, Ends (fun fuel => testMgmtValidateApp sockopts fuel imix cfg)
          passed := by
        by_cases hmax : cfg.tcApp = .max
        · exact ⟨false, ends_of_forall fun fuel => by rw [testMgmtValidateApp, hmax]⟩
        · simp only [testMgmtValidateApp_of_ne hmax]
          exact (h hchecks hmax).ends
      obtain ⟨passed, hends⟩ := happ
      refine ⟨passed && validateSide cfg, ?_⟩
      simp only [testMgmtValidateTestCase, hchecks, Bool.not_true, Bool.false_eq_true, if_false]
      refine hends.bind (ends_of_forall fun _ => ?_)
      cases passed <;> rfl

/-- A validation returns if and only if going down from the application comes to an end. -/
theorem testMgmtValidateTestCase_returns :
    (∃ fuel b, testMgmtValidateTestCase sockopts devCount fuel imix cfg = .ok b) ↔
      DefinitionGrounded sockopts devCount imix cfg := by
  constructor
  · rintro ⟨fuel, b, hrun⟩
    exact (testMgmtValidateTestCase_sound hrun).2
  · intro hgrounded
    obtain ⟨b, hends⟩ := hgrounded.ends
    obtain ⟨fuel, hrun⟩ := hends.ok
    exact ⟨fuel, b, hrun⟩

/-- `test_mgmt_validate_test_case` returns `true`. -/
theorem acceptable_iff :
    (∃ fuel, testMgmtValidateTestCase sockopts devCount fuel imix cfg = .ok true) ↔
      Acceptable sockopts devCount imix cfg := by
  constructor
  · rintro ⟨fuel, hrun⟩
    exact (testMgmtValidateTestCase_sound hrun).1.1 rfl
  · intro h
    obtain ⟨fuel, b, hrun⟩ := testMgmtValidateTestCase_returns.2 fun _ _ => h.app.grounded
    obtain rfl := (testMgmtValidateTestCase_sound hrun).1.2 h
    exact ⟨fuel, hrun⟩

end Verdicts

end ImixGroups
end Warp17
