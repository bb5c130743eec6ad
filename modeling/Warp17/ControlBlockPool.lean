import Warp17.StateTraces

/-!
# A pool of control blocks

The control blocks of one interface, each with the options it was opened with.  An input
concerns one control block; the clone of a listening control block is the only transition
that reads another one.  `transition_eq` says that such a clone is the one a single control
block is given by `connStep`, so that what is known of runs of one control block holds of
each member of the pool.
-/

namespace Warp17
namespace ControlBlockPool

open GuardedRuns SequenceComparison MbufChains ControlBlock ReceiveBuffer SendQueue
open RetransmissionQueue TcpStateMachine TransitionPaths ConnectionRuns SendInvariants StateTraces

universe u

instance (cfg : TcpConfig) : Decidable (ConfigOk cfg) :=
  decidable_of_iff (cfg.sockopt.tcpoWinSize.toNat < 2 ^ 16 ∧ 0 < cfg.mtu)
    ⟨fun h => ⟨h.1, h.2⟩, fun h => ⟨h.winSize, h.mtu⟩⟩

/-- The control blocks of one interface, and the options each was opened with. -/
structure Pool (ι : Type u) where
  tcb : ι → Tcb
  cfg : ι → TcpConfig

/-- No control block was ever opened. -/
def Pool.blank (ι : Type u) : Pool ι :=
  { tcb := fun _ => blankTcb
    cfg := fun _ => defaultConfig }

/-- An input for one control block. -/
structure PoolInput (ι : Type u) where
  who : ι
  input : ConnInput
  /-- the options of an open -/
  cfg : TcpConfig
  /-- the control block that is cloned for a SYN -/
  listener : ι

variable {ι : Type u}

/-- The options that an input is processed with. -/
def poolCfg (p : Pool ι) (i : PoolInput ι) : TcpConfig :=
  match i.input.event with
  | .open _ => i.cfg
  | .accept _ => p.cfg i.listener
  | .send _ | .close | .segment _ | .rtoTimer | .slowTimer | .purge => p.cfg i.who

/-- The transition of one input. -/
def transition (p : Pool ι) (i : PoolInput ι) : Tsm :=
  match i.input.event with
  | .accept syn => listenClone (i.input.env (poolCfg p i)) syn (p.tcb i.listener)
  | .open _ | .send _ | .close | .segment _ | .rtoTimer | .slowTimer | .purge =>
      connStep (poolCfg p i) (p.tcb i.who) i.input

/-- The pool after one input. -/
def poolStep [DecidableEq ι] (p : Pool ι) (i : PoolInput ι) : Pool ι :=
  { tcb := Function.update p.tcb i.who (transition p i).tcb
    cfg := Function.update p.cfg i.who (poolCfg p i) }

/-- What can happen to a member of the pool in its present state. -/
def PoolLegal (p : Pool ι) (i : PoolInput ι) : Prop :=
  ConnLegal (p.tcb i.who) i.input ∧
    match i.input.event with
    | .open _ => ConfigOk i.cfg
    | .accept _ => (p.tcb i.listener).inHtable = true ∧ (p.tcb i.listener).state = .listen
    | .send _ | .close | .segment _ | .rtoTimer | .slowTimer | .purge => True

instance (p : Pool ι) (i : PoolInput ι) : Decidable (PoolLegal p i) := by
  unfold PoolLegal
  cases i.input.event <;> infer_instance

/-- The invariant of every run. -/
structure PoolInv (p : Pool ι) : Prop where
  cfg : ∀ j, ConfigOk (p.cfg j)
  send : ∀ j, SendInv (p.cfg j) anySlack (p.tcb j)
  /-- no event but a close changes a listening control block -/
  listener :
    ∀ j, (p.tcb j).inHtable = true → (p.tcb j).state = .listen →
      ∀ env : TsmEnv, env.cfg = p.cfg j → p.tcb j = listenerTcb env

theorem poolInv_blank :
    PoolInv (Pool.blank ι) := by
  refine ⟨fun _ => defaultConfig_ok, fun _ => blankTcb_sendInv, ?_⟩
  intro j hlive
  cases hlive

/-- Only the options of its environment matter to a listening control block. -/
theorem listenerTcb_congr
    {env env' : TsmEnv}
    (h : env.cfg = env'.cfg) :
    listenerTcb env = listenerTcb env' := by
  unfold listenerTcb tcpOpenV4Connection tsmInitializeStatemachine tsmOpen
  rw [h]

/-- A passive open of a control block without timers. -/
theorem opened_listener
    {tcb : Tcb}
    (env : TsmEnv)
    (hrto : tcb.onRtoList = false)
    (hslow : tcb.onSlowList = false) :
    (tcpOpenV4Connection env false (Tsm.start tcb)).tcb = listenerTcb env := by
  cases tcb
  subst hrto hslow
  rfl

theorem transition_eq
    {p : Pool ι} {i : PoolInput ι}
    (hinv : PoolInv p)
    (hlegal : PoolLegal p i) :
    transition p i = connStep (poolCfg p i) (p.tcb i.who) i.input := by
  unfold transition
  cases hevent : i.input.event with
  | accept syn =>
      obtain ⟨-, hlisten⟩ := hlegal
      simp only [hevent] at hlisten
      have hlistener := hinv.listener i.listener hlisten.1 hlisten.2
        (i.input.env (poolCfg p i)) (by simp [ConnInput.env, poolCfg, hevent])
      simp only [connStep, hevent, hlistener]
  | «open» _ | send _ | close | segment _ | rtoTimer | slowTimer | purge =>
      rfl

/-- The options an input is processed with have passed the checks. -/
theorem poolCfg_ok
    {p : Pool ι} {i : PoolInput ι}
    (hinv : PoolInv p)
    (hlegal : PoolLegal p i) :
    ConfigOk (poolCfg p i) := by
  unfold poolCfg
  cases hevent : i.input.event with
  | «open» active =>
      obtain ⟨-, hcfg⟩ := hlegal
      simpa only [hevent] using hcfg
  | accept syn =>
      exact hinv.cfg i.listener
  | send _ | close | segment _ | rtoTimer | slowTimer | purge =>
      exact hinv.cfg i.who

/-- A control block that is not opened keeps its options. -/
theorem poolCfg_goesOn
    {p : Pool ι} {i : PoolInput ι}
    (hgoes : goesOn i.input.event = true) :
    poolCfg p i = p.cfg i.who := by
  unfold poolCfg
  cases hevent : i.input.event with
  | «open» _ | accept _ | purge =>
      simp [goesOn, hevent] at hgoes
  | send _ | close | segment _ | rtoTimer | slowTimer =>
      rfl

/-- A dead control block satisfies the invariant with any options. -/
theorem sendInv_anyCfg
    {cfg cfg' : TcpConfig} {tcb : Tcb}
    (h : SendInv cfg anySlack tcb)
    (hdead : tcb.inHtable = false) :
    SendInv cfg' anySlack tcb :=
  sendInv_dead hdead (h.dead hdead).1 (h.dead hdead).2

/-- The member that an input concerns satisfies the invariant with the options of the input. -/
theorem PoolInv.who
    {p : Pool ι} {i : PoolInput ι}
    (hinv : PoolInv p)
    (hlegal : PoolLegal p i) :
    SendInv (poolCfg p i) anySlack (p.tcb i.who) := by
  have hsend := hinv.send i.who
  have hconn := hlegal.1
  unfold poolCfg
  unfold ConnLegal at hconn
  cases hevent : i.input.event with
  | «open» active =>
      simp only [hevent] at hconn
      exact sendInv_anyCfg hsend hconn
  | accept syn =>
      simp only [hevent] at hconn
      exact sendInv_anyCfg hsend hconn.1
  | send _ | close | segment _ | rtoTimer | slowTimer | purge =>
      exact hsend

/-- The path a transition follows ends in `TS_LISTEN` only where it began. -/
theorem traced_listen
    {cur : TcpState} {c : Tsm}
    (h : Traced [] cur c)
    (hlisten : c.tcb.state = .listen) :
    enters c.out = [] ∧ cur = .listen := by
  obtain ⟨o, ho, hok, hlast⟩ := h.path
  rw [List.nil_append] at ho
  rw [ho]
  rw [hlisten] at hlast
  have hend : ∀ es s, EntersOk s es → lastState s es = .listen → es = [] := by
    intro es
    induction es with
    | nil =>
        intros
        rfl
    | cons e es ih =>
        intro s hok hlast
        obtain ⟨-, -, -, hne, hrest⟩ := hok
        have hnil := ih e hrest hlast
        rw [hnil] at hlast
        exact absurd hlast hne
  have hnil := hend _ _ hok hlast.symm
  rw [hnil] at hlast
  exact ⟨hnil, hlast.symm⟩

/-- No event but a close changes a listening control block. -/
theorem listen_kept
    {cfg : TcpConfig} {tcb : Tcb} {i : ConnInput}
    (hlisten : tcb.state = .listen)
    (hrto : tcb.onRtoList = false)
    (hslow : tcb.onSlowList = false)
    (hlegal : ConnLegal tcb i)
    (hgoes : goesOn i.event = true)
    (hlive : (connStep cfg tcb i).tcb.inHtable = true) :
    (connStep cfg tcb i).tcb = tcb := by
  unfold connStep at hlive ⊢
  unfold ConnLegal at hlegal
  cases hevent : i.event with
  | «open» _ | accept _ | purge =>
      simp [goesOn, hevent] at hgoes
  | send data =>
      simp only [tsmSend, Tsm.start, hlisten]
      rfl
  | close =>
      simp only [hevent, tsmClose, Tsm.start, hlisten] at hlive
      rw [notifyAndClose, enterClosed, (tcpSilentClose_dead _).1] at hlive
      cases hlive
  | segment pcb =>
      simp only [tsmSegmentArrives, Tsm.start, hlisten, listenSegment]
      split <;> rfl
  | rtoTimer =>
      simp only [hevent, hrto] at hlegal
      cases hlegal
  | slowTimer =>
      simp only [hevent, hslow] at hlegal
      cases hlegal

/-- The member that an input concerns still satisfies the invariant. -/
theorem poolInv_who
    {p : Pool ι} {i : PoolInput ι}
    (hinv : PoolInv p)
    (hlegal : PoolLegal p i)
    (hlive : (transition p i).tcb.inHtable = true)
    (hlisten : (transition p i).tcb.state = .listen)
    (env : TsmEnv)
    (henv : env.cfg = poolCfg p i) :
    (transition p i).tcb = listenerTcb env := by
  have hwho := hinv.who hlegal
  have hconn := hlegal.1
  rw [transition_eq hinv hlegal] at hlive hlisten ⊢
  cases hgoes : goesOn i.input.event with
  | true =>
      have hcfg := poolCfg_goesOn (p := p) hgoes
      rcases connStep_traced (poolCfg_ok hinv hlegal) hwho hconn hgoes with htraced | ⟨hdead, -⟩
      · obtain ⟨-, hbefore⟩ := traced_listen htraced hlisten
        have hlive₀ := live_of_goesOn hwho hconn hgoes
        have heq := hinv.listener i.who hlive₀ hbefore env (henv.trans hcfg)
        have hrto : (p.tcb i.who).onRtoList = false := by
          rw [heq]
          rfl
        have hslow : (p.tcb i.who).onSlowList = false := by
          rw [heq]
          rfl
        rw [listen_kept hbefore hrto hslow hconn hgoes hlive]
        exact heq
      · rw [hdead] at hlive
        cases hlive
  | false =>
      unfold connStep at hlive hlisten ⊢
      unfold ConnLegal at hconn
      cases hevent : i.input.event with
      | «open» active =>
          simp only [hevent] at hconn hlisten ⊢
          obtain ⟨hrto, hslow⟩ := hwho.dead hconn
          cases active with
          | true =>
              obtain ⟨tcb, heq, hsyn⟩ :=
                openedActive_eq (i.input.env (poolCfg p i)) (Tsm.start (p.tcb i.who))
              rw [heq, tsmScheduleRetransmission_eq] at hlisten
              exact absurd (hsyn.state.symm.trans hlisten) (by simp)
          | false =>
              rw [opened_listener _ hrto hslow]
              exact listenerTcb_congr henv.symm
      | accept syn =>
          simp only [hevent] at hlisten
          obtain ⟨tcb, heq, hsyn⟩ := accepted_eq (i.input.env (poolCfg p i)) syn
          rw [heq, tsmScheduleRetransmission_eq] at hlisten
          exact absurd (hsyn.state.symm.trans hlisten) (by simp)
      | purge =>
          simp only [hevent] at hlive
          rw [(tcpSilentClose_dead _).1] at hlive
          cases hlive
      | send _ | close | segment _ | rtoTimer | slowTimer =>
          simp [goesOn, hevent] at hgoes

theorem poolInv_step
    [DecidableEq ι] {p : Pool ι} {i : PoolInput ι}
    (hinv : PoolInv p)
    (hlegal : PoolLegal p i) :
    PoolInv (poolStep p i) := by
  have hcfg := poolCfg_ok hinv hlegal
  have hsend : SendInv (poolCfg p i) anySlack (transition p i).tcb := by
    rw [transition_eq hinv hlegal]
    exact sendInv_step hcfg (hinv.who hlegal) hlegal.1 (anySlack_fits _ _)
  have hother : ∀ j, j ≠ i.who →
      (poolStep p i).tcb j = p.tcb j ∧ (poolStep p i).cfg j = p.cfg j :=
    fun j hj => ⟨Function.update_of_ne hj _ _, Function.update_of_ne hj _ _⟩
  have hself : (poolStep p i).tcb i.who = (transition p i).tcb ∧
      (poolStep p i).cfg i.who = poolCfg p i :=
    ⟨Function.update_self _ _ _, Function.update_self _ _ _⟩
  refine ⟨fun j => ?_, fun j => ?_, fun j => ?_⟩
  · rcases eq_or_ne j i.who with rfl | hj
    · rw [hself.2]
      exact hcfg
    · rw [(hother j hj).2]
      exact hinv.cfg j
  · rcases eq_or_ne j i.who with rfl | hj
    · rw [hself.1, hself.2]
      exact hsend
    · rw [(hother j hj).1, (hother j hj).2]
      exact hinv.send j
  · rcases eq_or_ne j i.who with rfl | hj
    · rw [hself.1, hself.2]
      exact poolInv_who hinv hlegal
    · rw [(hother j hj).1, (hother j hj).2]
      exact hinv.listener j

end ControlBlockPool
end Warp17
