import Warp17.ManagementApi

/-!
# IMIX groups in use

What a call of the management interface does to the test cases and to the groups, whether it keeps
the configuration or not: it changes one test case and the groups that are free for it, or a group
that nobody uses.

**Results**
- `perform_effect`: a call that returns has one of these effects.
- `Effect.foreign`: a call for one port leaves the groups of the other ports alone.
- `systemChecked_run`: the groups below configured test cases belong to them, and passed their
  check, on every port.
-/

namespace Warp17
namespace GroupsInUse

open TestCaseConfig ImixGroups BoundedCalls GuardedRuns ManagementApi

/-- A new test case of the call, if there is one, is for the port. -/
def Call.OnPort (ethPort : Nat) : Call → Prop
  | .addTestCase (some cfg) => cfg.tcEthPort = ethPort
  | _ => True

/-- All configured test cases are for the port. -/
def OnPort (ethPort : Nat) (s : Mgmt) : Prop :=
  ∀ index, (s.env.teTestCases index).teosConfigured = true →
    (s.env.teTestCases index).cfg.tcEthPort = ethPort

/-- What a call makes of a state. -/
inductive Effect (s : Mgmt) (c : Call) : Mgmt → Prop
  | nothing : Effect s c s
  | testCase {s' : Mgmt} (index : Fin tpgTestMaxEntries) (hchange : Change s s' index)
      (hframe : Frame (s'.env.teTestCases index).cfg s.imix.groups s'.imix.groups)
      (hport : ∀ ethPort, OnPort ethPort s → Call.OnPort ethPort c →
        (s'.env.teTestCases index).cfg.tcEthPort = ethPort) : Effect s c s'
  | group (imixId : Nat) (group : ImixGroup)
      (hunused : (s.imix.groups imixId).tigConfigured = false ∨
        (s.imix.groups imixId).tigReferenced = false)
      (hvalid : group.tigConfigured = true → testMgmtValidateImixGroup group.tigApps = true) :
      Effect s c (s.setGroup imixId group)

section Effects

variable {pf : Platform} {s s' : Mgmt} {c : Call} {fuel : Nat}

theorem effect_of_refused
    {result : Mgmt × Reply}
    (hrefused : Refused s result) :
    Effect s c result.1 := by
  rw [hrefused.1]
  exact Effect.nothing

/-- An entry that keeps its keys and its application is stored. -/
theorem effect_of_stored
    {index : Fin tpgTestMaxEntries}
    (hbook : Bookkeeping s)
    (hconfigured : (s.env.teTestCases index).teosConfigured = true)
    (entry : TestEntry)
    (hentry : entry.teosConfigured = true)
    (hport : entry.cfg.tcEthPort = (s.env.teTestCases index).cfg.tcEthPort)
    (hid : entry.cfg.tcId = (s.env.teTestCases index).cfg.tcId)
    (happ : entry.cfg.tcApp = (s.env.teTestCases index).cfg.tcApp) :
    Effect s c { s with env := s.env.setEntry index entry } := by
  refine Effect.testCase index (change_stored hbook hconfigured entry hentry hport hid happ)
    (Frame.refl _ _) fun ethPort hon _ => ?_
  rw [setEntry_self, hport]
  exact hon index hconfigured

theorem effect_of_setSockopt
    {index : Fin tpgTestMaxEntries} {testCaseId : Nat} {tcType : TestCaseType}
    (hbook : Bookkeeping s)
    (hcheck : testMgmtUpdateTestCaseCheck pf s.env testCaseId tcType = .ok index)
    (sockopt : Sockopt) :
    Effect s c { s with env := s.env.setSockopt index sockopt } := by
  have hconfigured := (updateCheck_ok hcheck).2.2.2
  exact effect_of_stored hbook hconfigured _ hconfigured rfl rfl rfl

theorem effect_addTestCase
    {arg : Option TestCase} {result : Mgmt × Reply}
    (hbook : Bookkeeping s)
    (hrun : testMgmtAddTestCase pf fuel s arg = .ok result) :
    Effect s (.addTestCase arg) result.1 := by
  rcases added_cases hrun with hrefused | ⟨cfg, index, imix, rfl, hcheck, hvalid, hadd, rfl⟩
  · exact effect_of_refused hrefused
  · have hmarks := (addCfg_spec fuel _ _ _ (validates_iff.1 hvalid).app.takeable hadd).1
    have hentry : ((s.env.addEntry pf index cfg).teTestCases index).cfg = cfg := by
      simp [TestEnv.addEntry]
    refine Effect.testCase index (change_added hbook hcheck hvalid hadd) ?_ fun ethPort _ hon => ?_
    · rw [hentry]
      exact hmarks.toFrame
    · rw [hentry]
      exact hon

theorem effect_delTestCase
    {testCaseId : Nat} {result : Mgmt × Reply}
    (hbook : Bookkeeping s)
    (hcount : s.env.teTestCasesCount = configuredCount s.env)
    (hrun : testMgmtDelTestCase pf fuel s testCaseId = .ok result) :
    Effect s c result.1 := by
  rcases deleted_cases hrun with hrefused | ⟨index, imix, hcheck, hdelete, rfl⟩
  · exact effect_of_refused hrefused
  · have hconfigured := (delCheck_ok hcheck).2.2
    have hdeleted := (hbook.held index hconfigured).deleted rfl rfl hdelete
    have hentry : ((s.env.delEntry index).teTestCases index).cfg =
        (s.env.teTestCases index).cfg := by
      simp [TestEnv.delEntry]
    refine Effect.testCase index (change_deleted hbook hcount hcheck hdeleted) ?_
      fun ethPort hon _ => ?_
    · rw [hentry]
      exact hdeleted.frame
    · rw [hentry]
      exact hon index hconfigured

theorem effect_updateTestCaseApp
    {testCaseId : Nat} {arg : Option App} {result : Mgmt × Reply}
    (hbook : Bookkeeping s)
    (hrun : testMgmtUpdateTestCaseApp pf fuel s testCaseId arg = .ok result) :
    Effect s c result.1 := by
  rcases updatedApp_cases hrun with
    hrefused | ⟨appCfg, index, imix, imix', hcheck, hvalid, hdelete, hadd, rfl⟩
  · exact effect_of_refused hrefused
  · have hconfigured := (updateCheck_ok hcheck).2.2.2
    have hdeleted :
        Deleted (withApp (s.env.teTestCases index).cfg appCfg) (s.app index) s.imix imix :=
      deleted_updatedApp hbook hconfigured hdelete
    have hframe := hdeleted.frame
    have htake : Takeable (withApp (s.env.teTestCases index).cfg appCfg) s.imix.groups appCfg :=
      (validates_iff.1 hvalid).app.takeable
    have hmarks := (addCfg_spec fuel _ _ _ (htake.frame hframe) hadd).1
    refine Effect.testCase index (change_updatedApp hbook hconfigured hframe htake hadd) ?_
      fun ethPort hon _ => ?_
    · simp only [setCfg_self]
      exact hframe.trans hmarks.toFrame
    · simp only [setCfg_self]
      exact hon index hconfigured

theorem effect_updateTestCase
    {testCaseId : Nat} {arg : Option UpdateArg}
    (hbook : Bookkeeping s) :
    Effect s c (testMgmtUpdateTestCase pf s testCaseId arg).1 := by
  cases arg with
  | none =>
      exact Effect.nothing
  | some update =>
      rcases refused_or_updated testCaseId update with ⟨hrefused, -⟩ | ⟨index, hcheck, heq⟩
      · exact effect_of_refused hrefused
      · have hconfigured := (updateCheck_ok hcheck).2.2.2
        have hstored := @effect_of_stored s c index hbook hconfigured
        rw [heq]
        cases update.uaLatency with
        | none =>
            exact hstored _ hconfigured rfl rfl rfl
        | some latency =>
            dsimp only
            split_ifs with hrefused
            · exact hstored _ hconfigured rfl rfl rfl
            · exact hstored _ hconfigured rfl rfl rfl

theorem effect_addImixGroup
    (imixId : Nat) (arg : Option (List ImixApp)) :
    Effect s c (testMgmtAddImixGroup s imixId arg).1 := by
  rcases refused_or_addedImixGroup imixId arg with hrefused | ⟨apps, hfree, hvalid, heq⟩
  · exact effect_of_refused hrefused
  · rw [heq]
    exact Effect.group imixId _ (.inl hfree) fun _ => hvalid

theorem effect_delImixGroup
    (imixId : Nat) :
    Effect s c (testMgmtDelImixGroup s imixId).1 := by
  rcases refused_or_deletedImixGroup imixId with hrefused | ⟨hfree, heq⟩
  · exact effect_of_refused hrefused
  · rw [heq]
    exact Effect.group imixId _ (.inr hfree) nofun

/-- Every call that returns has one of the effects. -/
theorem perform_effect
    {result : Mgmt × Reply}
    (hbook : Bookkeeping s)
    (hcount : s.env.teTestCasesCount = configuredCount s.env)
    (hrun : perform pf fuel s c = .ok result) :
    Effect s c result.1 := by
  cases c with
  | addTestCase arg =>
      exact effect_addTestCase hbook hrun
  | delTestCase testCaseId =>
      exact effect_delTestCase hbook hcount hrun
  | updateTestCase testCaseId arg =>
      obtain rfl := Except.ok.inj hrun
      exact effect_updateTestCase hbook
  | updateTestCaseApp testCaseId arg =>
      exact effect_updateTestCaseApp hbook hrun
  | setTcpSockopt testCaseId opts =>
      obtain rfl := Except.ok.inj hrun
      rcases refused_or_setTcpSockopt testCaseId opts with
        hrefused | ⟨index, sockopt, hcheck, -, heq⟩
      · exact effect_of_refused hrefused
      · rw [heq]
        exact effect_of_setSockopt hbook hcheck sockopt
  | setIpv4Sockopt testCaseId arg =>
      obtain rfl := Except.ok.inj hrun
      cases arg with
      | none =>
          exact Effect.nothing
      | some opts =>
          rcases refused_or_setIpv4Sockopt testCaseId opts with
            ⟨hrefused, -⟩ | ⟨index, sockopt, hcheck, -, -, heq⟩
          · exact effect_of_refused hrefused
          · rw [heq]
            exact effect_of_setSockopt hbook hcheck sockopt
  | setVlanSockopt testCaseId opts =>
      obtain rfl := Except.ok.inj hrun
      rcases refused_or_setVlanSockopt testCaseId opts with
        hrefused | ⟨index, sockopt, hcheck, -, heq⟩
      · exact effect_of_refused hrefused
      · rw [heq]
        exact effect_of_setSockopt hbook hcheck sockopt
  | addImixGroup imixId apps =>
      obtain rfl := Except.ok.inj hrun
      exact effect_addImixGroup imixId apps
  | delImixGroup imixId =>
      obtain rfl := Except.ok.inj hrun
      exact effect_delImixGroup imixId

end Effects

/-! ## Groups in use passed their check -/

/-- The bookkeeping and the count hold, and configured groups are valid ones. -/
structure GroupsChecked (s : Mgmt) : Prop where
  book : Bookkeeping s
  count : s.env.teTestCasesCount = configuredCount s.env
  valid : ∀ imixId, (s.imix.groups imixId).tigConfigured = true →
    testMgmtValidateImixGroup (s.imix.groups imixId).tigApps = true

section Invariant

variable {pf : Platform} {s s' : Mgmt} {c : Call} {imixId : Nat}

/-- A group that nobody uses is below no configured test case. -/
theorem ne_of_unused
    {j : Fin tpgTestMaxEntries} {other : Nat}
    (hbook : Bookkeeping s)
    (hconfigured : (s.env.teTestCases j).teosConfigured = true)
    (hbelow : Below s.members (s.app j) (.imix other))
    (hunused : (s.imix.groups imixId).tigConfigured = false ∨
      (s.imix.groups imixId).tigReferenced = false) :
    other ≠ imixId := by
  rintro rfl
  obtain ⟨hin, hown⟩ := (hbook.held j hconfigured).group_below hbelow
  rcases hunused with hfree | hfree
  · rw [hfree] at hin
    cases hin
  · rw [ImixGroup.OwnedBy, hfree] at hown
    cases hown.1

theorem GroupsChecked.effect
    (hchecked : GroupsChecked s)
    (heffect : Effect s c s') :
    GroupsChecked s' := by
  cases heffect with
  | nothing =>
      exact hchecked
  | testCase index hchange hframe hport =>
      refine ⟨hchange.bookkeeping hchecked.book, ?_, fun imixId hconfigured => ?_⟩
      · have hcount := hchange.count
        have hbits := configuredCount_add_bit hchange.others
        have hold := hchecked.count
        omega
      · rw [hframe.configured] at hconfigured
        have happs := congrFun hframe.apps imixId
        rw [members, members] at happs
        rw [happs]
        exact hchecked.valid imixId hconfigured
  | group imixId group hunused hvalid =>
      refine ⟨⟨hchecked.book.ids, fun j hconfigured => ?_⟩, hchecked.count, fun other hin => ?_⟩
      · have hsame : SameBelow s (s.setGroup imixId group) (s.app j) := fun other hbelow =>
          Function.update_of_ne
            (ne_of_unused hchecked.book hconfigured hbelow hunused) ..
        exact hsame.held (hchecked.book.held j hconfigured)
      · by_cases hother : other = imixId
        · subst hother
          simp only [Mgmt.setGroup, Function.update_self] at hin ⊢
          exact hvalid hin
        · simp only [Mgmt.setGroup, Function.update_of_ne hother] at hin ⊢
          exact hchecked.valid other hin

theorem GroupsChecked.step
    {input : Input}
    (hchecked : GroupsChecked s)
    (hstep : ManagementApi.step pf s input s') :
    GroupsChecked s' := by
  cases input with
  | call c =>
      obtain ⟨fuel, reply, hrun⟩ := hstep
      exact hchecked.effect (perform_effect hchecked.book hchecked.count hrun)
  | testsRunning running =>
      obtain rfl : s' = setRunning s running := hstep
      exact ⟨⟨hchecked.book.ids, hchecked.book.held⟩, hchecked.count, hchecked.valid⟩

/-- A group below a configured test case passed its check. -/
theorem GroupsChecked.valid_below
    {index : Fin tpgTestMaxEntries}
    (hchecked : GroupsChecked s)
    (hconfigured : (s.env.teTestCases index).teosConfigured = true)
    (hbelow : Below s.members (s.app index) (.imix imixId)) :
    testMgmtValidateImixGroup (s.imix.groups imixId).tigApps = true :=
  hchecked.valid imixId ((hchecked.book.held index hconfigured).group_below hbelow).1

/-- What a call for one port leaves alone: a group in use by a test case of another. -/
theorem Effect.foreign
    {ethPort : Nat} {cfg : TestCase}
    (heffect : Effect s c s')
    (hon : OnPort ethPort s)
    (hcall : Call.OnPort ethPort c)
    (hother : cfg.tcEthPort ≠ ethPort)
    (hconfigured : (s.imix.groups imixId).tigConfigured = true)
    (howned : (s.imix.groups imixId).OwnedBy cfg) :
    s'.imix.groups imixId = s.imix.groups imixId := by
  cases heffect with
  | nothing =>
      rfl
  | testCase index hchange hframe hport =>
      refine hframe.others imixId (usedByOther_of_owned howned fun hsame => hother ?_)
      rw [hsame.1]
      exact hport ethPort hon hcall
  | group changed group hunused hvalid =>
      refine Function.update_of_ne ?_ ..
      rintro rfl
      rcases hunused with hfree | hfree
      · rw [hfree] at hconfigured
        cases hconfigured
      · rw [ImixGroup.OwnedBy, hfree] at howned
        cases howned.1

theorem Effect.onPort
    {ethPort : Nat}
    (heffect : Effect s c s')
    (hon : OnPort ethPort s)
    (hcall : Call.OnPort ethPort c) :
    OnPort ethPort s' := by
  cases heffect with
  | nothing =>
      exact hon
  | testCase index hchange hframe hport =>
      intro j hconfigured
      by_cases hj : j = index
      · subst hj
        exact hport ethPort hon hcall
      · rw [hchange.others j hj] at hconfigured ⊢
        exact hon j hconfigured
  | group changed group hunused hvalid =>
      exact hon

end Invariant

/-! ## All ports -/

/-- The environments of all ports, and what they share. -/
structure System where
  envs : Nat → TestEnv
  imix : Imix

/-- The state as a call on a port finds it. -/
def System.port (s : System) (ethPort : Nat) : Mgmt :=
  ⟨s.envs ethPort, s.imix⟩

/-- The state after a call on a port. -/
def System.setPort (s : System) (ethPort : Nat) (after : Mgmt) : System :=
  ⟨Function.update s.envs ethPort after.env, after.imix⟩

section Ports

variable (devCount : Nat) (txOffloadCapa : Nat → EthSockopt)

/-- What a call on a port finds around it: the options of the other ports among it. -/
def System.platform (s : System) (ethPort : Nat) : Platform where
  devCount := devCount
  ethPort := ethPort
  txOffloadCapa := txOffloadCapa
  otherSockopts := fun other testCaseId =>
    testMgmtGetIpv4Sockopt ⟨devCount, other, txOffloadCapa, fun _ _ => none⟩ (s.envs other) other
      testCaseId

def Input.OnPort (ethPort : Nat) : Input → Prop
  | .call c => Call.OnPort ethPort c
  | .testsRunning _ => True

/-- A call on a port, which returns, or its tests started or stopped.  All callers add a test case
on its own port. -/
def systemStep (s : System) (input : Nat × Input) (s' : System) : Prop :=
  Input.OnPort input.1 input.2 ∧
    ∃ after, step (s.platform devCount txOffloadCapa input.1) (s.port input.1) input.2 after ∧
      s' = s.setPort input.1 after

end Ports

/-- All ports before their first test cases. -/
def System.initial (imix : Imix) (left : Nat → Fin tpgTestMaxEntries → TestEntry) : System where
  envs := fun ethPort => (ManagementApi.initial imix (left ethPort)).env
  imix := imix

/-- On every port the groups in use passed their check, and the test cases are its own. -/
def SystemChecked (s : System) : Prop :=
  ∀ ethPort, GroupsChecked (s.port ethPort) ∧ OnPort ethPort (s.port ethPort)

section Ports

variable {devCount : Nat} {txOffloadCapa : Nat → EthSockopt} {s s' : System}

theorem port_setPort
    (s : System) (ethPort : Nat) (after : Mgmt) :
    (s.setPort ethPort after).port ethPort = after := by
  simp only [System.setPort, System.port, Function.update_self]

/-- What another port keeps. -/
theorem GroupsChecked.otherPort
    {ethPort other : Nat} {after : Mgmt}
    (hchecked : SystemChecked s)
    (hafter : GroupsChecked after)
    (hforeign : ∀ (cfg : TestCase) (imixId : Nat), cfg.tcEthPort ≠ ethPort →
      (s.imix.groups imixId).tigConfigured = true → (s.imix.groups imixId).OwnedBy cfg →
        after.imix.groups imixId = s.imix.groups imixId)
    (hother : other ≠ ethPort) :
    GroupsChecked ((s.setPort ethPort after).port other) ∧
      OnPort other ((s.setPort ethPort after).port other) := by
  obtain ⟨hold, hon⟩ := hchecked other
  have hport : (s.setPort ethPort after).port other = ⟨s.envs other, after.imix⟩ := by
    simp only [System.setPort, System.port, Function.update_of_ne hother]
  rw [hport]
  refine ⟨⟨⟨hold.book.ids, fun j hconfigured => ?_⟩, hold.count, hafter.valid⟩, hon⟩
  have hsame : SameBelow (s.port other) ⟨s.envs other, after.imix⟩ ((s.port other).app j) := by
    intro imixId hbelow
    obtain ⟨hin, howned⟩ := (hold.book.held j hconfigured).group_below hbelow
    refine hforeign _ imixId ?_ hin howned
    rw [hon j hconfigured]
    exact hother
  exact hsame.held (hold.book.held j hconfigured)

theorem SystemChecked.step
    {input : Nat × Input}
    (hchecked : SystemChecked s)
    (hstep : systemStep devCount txOffloadCapa s input s') :
    SystemChecked s' := by
  obtain ⟨ethPort, input⟩ := input
  obtain ⟨hinput, after, hafter, rfl⟩ := hstep
  obtain ⟨hold, hon⟩ := hchecked ethPort
  have hnew := hold.step hafter
  intro other
  by_cases hother : other = ethPort
  · subst hother
    rw [port_setPort]
    refine ⟨hnew, ?_⟩
    cases input with
    | call c =>
        obtain ⟨fuel, reply, hrun⟩ := hafter
        exact (perform_effect hold.book hold.count hrun).onPort hon hinput
    | testsRunning running =>
        obtain rfl : after = setRunning _ running := hafter
        exact hon
  · refine GroupsChecked.otherPort hchecked hnew ?_ hother
    intro cfg imixId hforeign hconfigured howned
    cases input with
    | call c =>
        obtain ⟨fuel, reply, hrun⟩ := hafter
        exact (perform_effect hold.book hold.count hrun).foreign hon hinput hforeign hconfigured
          howned
    | testsRunning running =>
        obtain rfl : after = setRunning _ running := hafter
        rfl

/-- After any calls on any ports, beginning with no test cases and no groups. -/
theorem systemChecked_run
    {imix : Imix} {left : Nat → Fin tpgTestMaxEntries → TestEntry} {inputs : List (Nat × Input)}
    (hgroups : ∀ imixId, (imix.groups imixId).tigConfigured = false)
    (hsteps : Steps (systemStep devCount txOffloadCapa) (System.initial imix left) inputs s) :
    SystemChecked s := by
  refine steps_invariant SystemChecked (fun _ _ _ hchecked hstep => hchecked.step hstep) ?_ hsteps
  intro ethPort
  refine ⟨⟨⟨nofun, nofun⟩, ?_, fun imixId hconfigured => ?_⟩, nofun⟩
  · simp [configuredCount, ManagementApi.initial, System.initial, System.port]
  · have hnone := hgroups imixId
    rw [show (imix.groups imixId).tigConfigured = true from hconfigured] at hnone
    cases hnone

end Ports

end GroupsInUse
end Warp17
