import Warp17.ControlBlockPool
import Warp17.BucketTables

/-!
# Looking up control blocks

Listening control blocks and sessions share the hash table of a core.  A packet is looked up
with its own addresses and ports first; a SYN that finds nothing is looked up again with the
remote half zero, which is what a listening control block has.  The table is searched by
bucket, where the newest entry comes first, and adding an entry does not look for another one
with the same key.

The hash is the Toeplitz hash of the four numbers, computed by the network card or by
`toeplitz_rawhash_addrport()`; nothing but that it is a function of them is used.

**Results**
- `find_iff`: as long as no two entries have the same key, a search finds the entry with it.
- `lookup_ok`: the lookups of `tcp_receive_pkt()` are right in every run in which no packet
  claims to come from the address and port zero and no open repeats a key.
- `zeroSource_aborts`: a SYN from the address and port zero puts a session in front of the
  listening control block, and the next SYN ends the program.
-/

namespace Warp17
namespace ListenerLookup

open GuardedRuns SequenceComparison MbufChains ControlBlock SendQueue TcpStateMachine
open TransitionPaths ConnectionRuns SendInvariants StateTraces ControlBlockPool BucketTables

universe u

section Table

/-- The interface, the addresses and the ports of a control block; `src` is the local side. -/
structure ConnKey where
  iface : BitVec 16
  srcAddr : U32
  srcPort : BitVec 16
  dstAddr : U32
  dstPort : BitVec 16
deriving DecidableEq, Repr

/-- What the lookup reads of `l4_control_block_t`. -/
structure L4Cb where
  key : ConnKey
  rxHash : U32
deriving DecidableEq, Repr

/-- The Toeplitz hash of the remote and the local address, and the remote and the local port. -/
abbrev Toeplitz := U32 → U32 → BitVec 16 → BitVec 16 → U32

/-- `tlkp_calc_connection_hash()` of a control block. -/
def tlkpCalcConnectionHash (toeplitz : Toeplitz) (key : ConnKey) : U32 :=
  toeplitz key.dstAddr key.srcAddr key.dstPort key.srcPort

/-- `tlkp_calc_pkt_hash()`; the bytes of a packet are in network order. -/
def tlkpCalcPktHash (toeplitz : Toeplitz) (srcAddr dstAddr : U32) (srcPort dstPort : BitVec 16) :
    U32 :=
  toeplitz srcAddr dstAddr srcPort dstPort

/-- `TPG_HASH_MOD(hash)`. -/
def tpgHashMod (hash : U32) : U32 :=
  ((hash >>> 20) ^^^ hash) &&& 0xFFFFF

/-- The control blocks of a core and its hash table, one list for each interface and bucket. -/
structure Stack (ι : Type u) where
  pool : Pool ι
  l4cb : ι → L4Cb
  htable : BitVec 16 × U32 → List ι
  /-- `TPG_ERROR_ABORT` was called -/
  aborted : Bool

/-- Before the first open. -/
def Stack.blank (ι : Type u) : Stack ι :=
  { pool := Pool.blank ι
    l4cb := fun _ =>
      { key := { iface := 0, srcAddr := 0, srcPort := 0, dstAddr := 0, dstPort := 0 }
        rxHash := 0 }
    htable := fun _ => []
    aborted := false }

variable {ι : Type u}

/-- `tlkp_get_hash_bucket()` for a control block. -/
def bucketOf (cb : L4Cb) : BitVec 16 × U32 :=
  (cb.key.iface, tpgHashMod cb.rxHash)

/-- The comparison of `tlkp_find_v4_cb()`. -/
def matchesCb (cb : L4Cb) (l4Hash localAddr remoteAddr : U32) (localPort remotePort : BitVec 16) :
    Bool :=
  decide (l4Hash = cb.rxHash) && decide (localPort = cb.key.srcPort) &&
    decide (remotePort = cb.key.dstPort) && decide (localAddr = cb.key.srcAddr) &&
    decide (remoteAddr = cb.key.dstAddr)

/-- `tlkp_find_v4_tcb()`. -/
def tlkpFindV4Tcb (x : Stack ι) (physPort : BitVec 16) (l4Hash localAddr remoteAddr : U32)
    (localPort remotePort : BitVec 16) : Option ι :=
  (x.htable (physPort, tpgHashMod l4Hash)).find? fun t =>
    matchesCb (x.l4cb t) l4Hash localAddr remoteAddr localPort remotePort

/-- `tlkp_add_tcb()`, after the addresses were set. -/
def tlkpAddTcb [DecidableEq ι] (x : Stack ι) (who : ι) (cb : L4Cb) : Stack ι :=
  { x with
    l4cb := Function.update x.l4cb who cb
    htable := insertHead x.htable (bucketOf cb) who }

/-- `tlkp_delete_tcb()`. -/
def tlkpDeleteTcb [DecidableEq ι] (x : Stack ι) (who : ι) : BitVec 16 × U32 → List ι :=
  removeFrom x.htable (bucketOf (x.l4cb who)) who

end Table

section Receive

/-- What `tcp_receive_pkt()` reads of a packet. -/
structure RxPkt where
  /-- `pcb_port` -/
  port : BitVec 16
  srcAddr : U32
  dstAddr : U32
  srcPort : BitVec 16
  dstPort : BitVec 16
  pcb : Pcb

/-- The key of the session that a packet belongs to. -/
def RxPkt.sessionKey (pkt : RxPkt) : ConnKey :=
  { iface := pkt.port
    srcAddr := pkt.dstAddr
    srcPort := pkt.dstPort
    dstAddr := pkt.srcAddr
    dstPort := pkt.srcPort }

/-- The key of a listening control block that accepts the packet. -/
def RxPkt.listenKey (pkt : RxPkt) : ConnKey :=
  { pkt.sessionKey with dstAddr := 0, dstPort := 0 }

variable {ι : Type u} (toeplitz : Toeplitz)

/-- The lookup for a known session. -/
def findSession (x : Stack ι) (pkt : RxPkt) : Option ι :=
  tlkpFindV4Tcb x pkt.port
    (tlkpCalcPktHash toeplitz pkt.srcAddr pkt.dstAddr pkt.srcPort pkt.dstPort)
    pkt.dstAddr pkt.srcAddr pkt.dstPort pkt.srcPort

/-- The lookup for a server that accepts new requests. -/
def findListener (x : Stack ι) (pkt : RxPkt) : Option ι :=
  tlkpFindV4Tcb x pkt.port (tlkpCalcPktHash toeplitz 0 pkt.dstAddr 0 pkt.dstPort)
    pkt.dstAddr 0 pkt.dstPort 0

/-- Who is given a packet. -/
inductive Receiver (ι : Type u)
  | tcb (t : ι)
  /-- the answer is that of a closed connection -/
  | nobody
  | abort

/-- The lookups of `tcp_receive_pkt()`. -/
def tcpReceiveLookup (x : Stack ι) (pkt : RxPkt) : Receiver ι :=
  match findSession toeplitz x pkt with
  | some t => .tcb t
  | none =>
      if pkt.pcb.flags.syn then
        match findListener toeplitz x pkt with
        | some t => if (x.pool.tcb t).state ≠ .listen then .abort else .tcb t
        | none => .nobody
      else
        .nobody

/-- A listening control block is cloned for this segment. -/
def clones (pcb : Pcb) : Bool :=
  !pcb.flags.rst && !pcb.flags.ack && pcb.flags.syn

/-- The addresses of a clone: those of the listening control block, and of the sender. -/
def cloneCb (cb : L4Cb) (pkt : RxPkt) : L4Cb :=
  let key := { cb.key with dstAddr := pkt.srcAddr, dstPort := pkt.srcPort }
  { key := key, rxHash := tlkpCalcConnectionHash toeplitz key }

end Receive

section Steps

/-- What can happen on a core. -/
inductive StackEvent (ι : Type u)
  /-- `tcp_open_v4_connection()`; a remote half of zero is a listen -/
  | open (who : ι) (key : ConnKey) (cfg : TcpConfig)
  /-- `tcp_receive_pkt()`; `new` is what the allocation of a clone would give -/
  | receive (pkt : RxPkt) (new : Option ι)
  | send (who : ι) (data : TsmDataArg)
  | close (who : ι)
  | rtoTimer (who : ι)
  | slowTimer (who : ι)
  | purge (who : ι)

/-- An event, and what the environment decides while it is processed. -/
structure StackInput (ι : Type u) where
  event : StackEvent ι
  answer : DeliverCb
  sendOk : Nat → Bool
  dataPending : Bool

variable {ι : Type u}

/-- The same environment, for an event of one control block. -/
def StackInput.member (i : StackInput ι) (who listener : ι) (cfg : TcpConfig)
    (event : ConnEvent) : PoolInput ι :=
  { who := who
    input :=
      { event := event
        answer := i.answer
        sendOk := i.sendOk
        dataPending := i.dataPending }
    cfg := cfg
    listener := listener }

/-- An event that neither opens nor clones. -/
def StackInput.own (i : StackInput ι) (who : ι) (event : ConnEvent) : PoolInput ι :=
  i.member who who defaultConfig event

/-- A transition of one control block; one that closes it removes it from the table. -/
def movePool [DecidableEq ι] (x : Stack ι) (i : PoolInput ι) : Stack ι :=
  { x with
    pool := poolStep x.pool i
    htable :=
      if (x.pool.tcb i.who).inHtable && !(transition x.pool i).tcb.inHtable then
        tlkpDeleteTcb x i.who
      else
        x.htable }

variable (toeplitz : Toeplitz)

/-- `active` in `tcp_open_v4_connection()`. -/
def isActive (key : ConnKey) : Bool :=
  decide (key.dstAddr ≠ 0) || decide (key.dstPort ≠ 0)

/-- `tcp_open_v4_connection()`. -/
def openStep [DecidableEq ι] (x : Stack ι) (i : StackInput ι) (who : ι) (key : ConnKey)
    (cfg : TcpConfig) : Stack ι :=
  movePool
    (tlkpAddTcb x who { key := key, rxHash := tlkpCalcConnectionHash toeplitz key })
    (i.member who who cfg (.open (isActive key)))

/-- `tcp_receive_pkt()`, from the lookups on. -/
def tcpReceivePkt [DecidableEq ι] (x : Stack ι) (i : StackInput ι) (pkt : RxPkt)
    (new : Option ι) : Stack ι :=
  match tcpReceiveLookup toeplitz x pkt with
  | .abort => { x with aborted := true }
  | .nobody => x
  | .tcb t =>
      if (x.pool.tcb t).state = .listen ∧ clones pkt.pcb = true then
        match new with
        | none => x
        | some n =>
            movePool (tlkpAddTcb x n (cloneCb toeplitz (x.l4cb t) pkt))
              (i.member n t defaultConfig (.accept pkt.pcb))
      else
        movePool x (i.own t (.segment pkt.pcb))

/-- One step of a core. -/
def stackStep [DecidableEq ι] (x : Stack ι) (i : StackInput ι) : Stack ι :=
  match i.event with
  | .open who key cfg => openStep toeplitz x i who key cfg
  | .receive pkt new => tcpReceivePkt toeplitz x i pkt new
  | .send who data => movePool x (i.own who (.send data))
  | .close who => movePool x (i.own who .close)
  | .rtoTimer who => movePool x (i.own who .rtoTimer)
  | .slowTimer who => movePool x (i.own who .slowTimer)
  | .purge who => movePool x (i.own who .purge)

/-- What can happen in the present state; any packet can be received. -/
def StackLegal (x : Stack ι) (i : StackInput ι) : Prop :=
  match i.event with
  | .open who _ cfg => (x.pool.tcb who).inHtable = false ∧ ConfigOk cfg
  | .receive _ new => ∀ n ∈ new, (x.pool.tcb n).inHtable = false
  | .send who data => PoolLegal x.pool (i.own who (.send data))
  | .close who => PoolLegal x.pool (i.own who .close)
  | .rtoTimer who => PoolLegal x.pool (i.own who .rtoTimer)
  | .slowTimer who => PoolLegal x.pool (i.own who .slowTimer)
  | .purge who => PoolLegal x.pool (i.own who .purge)

instance (x : Stack ι) (i : StackInput ι) : Decidable (StackLegal x i) := by
  unfold StackLegal
  cases i.event with
  | receive pkt new =>
      cases new <;> infer_instance
  | «open» _ _ _ | send _ _ | close _ | rtoTimer _ | slowTimer _ | purge _ =>
      infer_instance

end Steps

section Invariant

variable {ι : Type u} (toeplitz : Toeplitz)

/-- The control block can be found. -/
def Live (x : Stack ι) (t : ι) : Prop :=
  (x.pool.tcb t).inHtable = true

/-- The invariant of a run. -/
structure StackInv (x : Stack ι) : Prop where
  pool : PoolInv x.pool
  table : Holds x.htable (Live x) (fun t => bucketOf (x.l4cb t))
  unique : ∀ t u, Live x t → Live x u → (x.l4cb t).key = (x.l4cb u).key → t = u
  hash : ∀ t, Live x t → (x.l4cb t).rxHash = tlkpCalcConnectionHash toeplitz (x.l4cb t).key
  /-- the remote half is zero exactly while the control block listens -/
  listen : ∀ t, Live x t → ((x.pool.tcb t).state = .listen ↔ isActive (x.l4cb t).key = false)
  running : x.aborted = false

/-- What the lookups are for. -/
structure LookupOk (x : Stack ι) : Prop where
  session :
    ∀ pkt t, findSession toeplitz x pkt = some t ↔
      Live x t ∧ (x.l4cb t).key = pkt.sessionKey
  listener : ∀ pkt t, findListener toeplitz x pkt = some t → (x.pool.tcb t).state = .listen
  neverAborts : ∀ pkt, tcpReceiveLookup toeplitz x pkt ≠ .abort
  reaches :
    ∀ pkt t, tcpReceiveLookup toeplitz x pkt = .tcb t →
      Live x t ∧
        ((x.l4cb t).key = pkt.sessionKey ∨
          ((x.pool.tcb t).state = .listen ∧ (x.l4cb t).key = pkt.listenKey ∧
            ∀ u, Live x u → (x.l4cb u).key ≠ pkt.sessionKey))
  running : x.aborted = false

/-- A packet that claims to come from the address and port zero, and would be cloned for. -/
def ZeroSource (pkt : RxPkt) : Prop :=
  pkt.srcAddr = 0 ∧ pkt.srcPort = 0 ∧ clones pkt.pcb = true

instance (pkt : RxPkt) : Decidable (ZeroSource pkt) :=
  inferInstanceAs (Decidable (_ ∧ _))

/-- The search for a key, as `tcp_receive_pkt()` would find it. -/
def findKey (x : Stack ι) (key : ConnKey) : Option ι :=
  tlkpFindV4Tcb x key.iface (tlkpCalcConnectionHash toeplitz key) key.srcAddr key.dstAddr
    key.srcPort key.dstPort

/--
No open repeats the key of a control block that can be found, and no listening control block
is cloned for a SYN from the address and port zero.
-/
def KeepsLookup (x : Stack ι) (i : StackInput ι) : Prop :=
  StackLegal x i ∧
    match i.event with
    | .open _ key _ => findKey toeplitz x key = none
    | .receive pkt new =>
        ¬ (ZeroSource pkt ∧ findSession toeplitz x pkt ≠ none ∧ new ≠ none)
    | .send _ _ | .close _ | .rtoTimer _ | .slowTimer _ | .purge _ => True

instance [DecidableEq ι] (x : Stack ι) (i : StackInput ι) :
    Decidable (KeepsLookup toeplitz x i) := by
  unfold KeepsLookup
  cases i.event <;> infer_instance

variable {toeplitz}

/-- A search finds the control block with the key. -/
theorem find_iff
    {x : Stack ι} {key : ConnKey} {t : ι}
    (h : StackInv toeplitz x) :
    findKey toeplitz x key = some t ↔ Live x t ∧ (x.l4cb t).key = key := by
  have hkey : ∀ u, bucketOf (x.l4cb u) =
      (key.iface, tpgHashMod (tlkpCalcConnectionHash toeplitz key)) →
      matchesCb (x.l4cb u) (tlkpCalcConnectionHash toeplitz key) key.srcAddr key.dstAddr
        key.srcPort key.dstPort = true → (x.l4cb u).key = key := by
    intro u hbucket hmatch
    simp only [matchesCb, Bool.and_eq_true, decide_eq_true_eq] at hmatch
    obtain ⟨⟨⟨⟨-, hsport⟩, hdport⟩, hsaddr⟩, hdaddr⟩ := hmatch
    have hiface : (x.l4cb u).key.iface = key.iface := congrArg Prod.fst hbucket
    cases hcb : (x.l4cb u).key
    rw [hcb] at hsport hdport hsaddr hdaddr hiface
    cases key
    simp_all
  rw [findKey, tlkpFindV4Tcb, h.table.find_iff]
  · constructor
    · rintro ⟨hlive, hbucket, hmatch⟩
      exact ⟨hlive, hkey t hbucket hmatch⟩
    · rintro ⟨hlive, rfl⟩
      have hhash := h.hash t hlive
      refine ⟨hlive, ?_, ?_⟩
      · rw [bucketOf, hhash]
      · simp [matchesCb, hhash]
  · intro u u' hu hu' hb hb' hm hm'
    exact h.unique u u' hu hu' ((hkey u hb hm).trans (hkey u' hb' hm').symm)

/-- Nothing is found exactly when no control block has the key. -/
theorem find_none
    {x : Stack ι} {key : ConnKey}
    (h : StackInv toeplitz x) :
    findKey toeplitz x key = none ↔ ∀ t, Live x t → (x.l4cb t).key ≠ key := by
  constructor
  · intro hnone t hlive hkey
    have hfound := (find_iff h).2 ⟨hlive, hkey⟩
    rw [hnone] at hfound
    cases hfound
  · intro hall
    cases hfind : findKey toeplitz x key with
    | none =>
        rfl
    | some t =>
        obtain ⟨hlive, hkey⟩ := (find_iff h).1 hfind
        exact absurd hkey (hall t hlive)

theorem findSession_eq
    (x : Stack ι) (pkt : RxPkt) :
    findSession toeplitz x pkt = findKey toeplitz x pkt.sessionKey := by
  rfl

theorem findListener_eq
    (x : Stack ι) (pkt : RxPkt) :
    findListener toeplitz x pkt = findKey toeplitz x pkt.listenKey := by
  rfl

/-- What the invariant says about the lookups. -/
theorem StackInv.lookupOk
    {x : Stack ι}
    (h : StackInv toeplitz x) :
    LookupOk toeplitz x := by
  have hlisten : ∀ pkt t, findListener toeplitz x pkt = some t →
      Live x t ∧ (x.l4cb t).key = pkt.listenKey ∧ (x.pool.tcb t).state = .listen := by
    intro pkt t hfind
    rw [findListener_eq] at hfind
    obtain ⟨hlive, hkey⟩ := (find_iff h).1 hfind
    refine ⟨hlive, hkey, (h.listen t hlive).2 ?_⟩
    rw [hkey]
    simp [isActive, RxPkt.listenKey]
  have hsession : ∀ pkt t, findSession toeplitz x pkt = some t ↔
      Live x t ∧ (x.l4cb t).key = pkt.sessionKey := by
    intro pkt t
    rw [findSession_eq]
    exact find_iff h
  refine ⟨hsession, fun pkt t hfind => (hlisten pkt t hfind).2.2, fun pkt => ?_,
    fun pkt t hreach => ?_, h.running⟩
  · unfold tcpReceiveLookup
    split
    · simp
    · split
      · split
        · rename_i t hfind
          simp [(hlisten pkt t hfind).2.2]
        · simp
      · simp
  · unfold tcpReceiveLookup at hreach
    split at hreach
    · rename_i u hfind
      cases hreach
      obtain ⟨hlive, hkey⟩ := (hsession pkt t).1 hfind
      exact ⟨hlive, Or.inl hkey⟩
    · rename_i hnone
      rw [findSession_eq] at hnone
      split at hreach
      · split at hreach
        · rename_i u hfind
          obtain ⟨hlive, hkey, hstate⟩ := hlisten pkt u hfind
          rw [if_neg (by simp [hstate])] at hreach
          cases hreach
          exact ⟨hlive, Or.inr ⟨hstate, hkey, (find_none h).1 hnone⟩⟩
        · cases hreach
      · cases hreach

/-- A control block that goes on listens exactly if it did before. -/
theorem listens_iff
    {x : Stack ι} {i : PoolInput ι}
    (h : StackInv toeplitz x)
    (hlegal : PoolLegal x.pool i)
    (hgoes : goesOn i.input.event = true)
    (hafter : (transition x.pool i).tcb.inHtable = true) :
    (transition x.pool i).tcb.state = .listen ↔ (x.pool.tcb i.who).state = .listen := by
  have hwho := h.pool.who hlegal
  have hconn := hlegal.1
  have hlive := live_of_goesOn hwho hconn hgoes
  have heq := transition_eq h.pool hlegal
  rw [heq] at hafter ⊢
  constructor
  · intro hlisten
    rcases connStep_traced (poolCfg_ok h.pool hlegal) hwho hconn hgoes with htraced | ⟨hdead, -⟩
    · exact (traced_listen htraced hlisten).2
    · rw [hdead] at hafter
      cases hafter
  · intro hlisten
    have hcfg := poolCfg_goesOn (p := x.pool) hgoes
    have hlistener := h.pool.listener i.who hlive hlisten (i.input.env (poolCfg x.pool i)) hcfg
    have hrto : (x.pool.tcb i.who).onRtoList = false := by
      rw [hlistener]
      rfl
    have hslow : (x.pool.tcb i.who).onSlowList = false := by
      rw [hlistener]
      rfl
    rw [listen_kept hlisten hrto hslow hconn hgoes hafter]
    exact hlisten

/-- The state an open leads to. -/
theorem opened_state
    (env : TsmEnv) (active : Bool) (c : Tsm) :
    (tcpOpenV4Connection env active c).tcb.inHtable = true ∧
      ((tcpOpenV4Connection env active c).tcb.state = .listen ↔ active = false) := by
  cases active with
  | true =>
      obtain ⟨tcb, heq, hsyn⟩ := openedActive_eq env c
      rw [heq, tsmScheduleRetransmission_eq]
      simp [hsyn.live, hsyn.state]
  | false =>
      exact ⟨rfl, by simp [tcpOpenV4Connection, tsmOpen, tsmInitializeStatemachine, setState,
        enterListen]⟩

theorem accepted_state
    (env : TsmEnv) (syn : Pcb) :
    (listenClone env syn (listenerTcb env)).tcb.inHtable = true ∧
      (listenClone env syn (listenerTcb env)).tcb.state = .synRecv := by
  obtain ⟨tcb, heq, hsyn⟩ := accepted_eq env syn
  rw [heq, tsmScheduleRetransmission_eq]
  exact ⟨hsyn.live, hsyn.state⟩

theorem stackInv_blank :
    StackInv toeplitz (Stack.blank ι) := by
  have hnone : ∀ t : ι, ¬ Live (Stack.blank ι) t := by
    intro t hlive
    cases hlive
  exact ⟨poolInv_blank, holds_empty hnone, fun t _ ht => absurd ht (hnone t),
    fun t ht => absurd ht (hnone t), fun t ht => absurd ht (hnone t), rfl⟩

variable [DecidableEq ι]

/-- A transition that neither opens nor clones keeps the invariant. -/
theorem movePool_inv
    {x : Stack ι} {i : PoolInput ι}
    (h : StackInv toeplitz x)
    (hlegal : PoolLegal x.pool i)
    (hlive : Live x i.who)
    (hstate :
      (transition x.pool i).tcb.inHtable = true →
        ((transition x.pool i).tcb.state = .listen ↔ (x.pool.tcb i.who).state = .listen)) :
    StackInv toeplitz (movePool x i) := by
  have hself : (movePool x i).pool.tcb i.who = (transition x.pool i).tcb :=
    Function.update_self _ _ _
  have hother : ∀ t, t ≠ i.who → (movePool x i).pool.tcb t = x.pool.tcb t :=
    fun t ht => Function.update_of_ne ht _ _
  -- no control block has come to life
  have hbefore : ∀ t, Live (movePool x i) t → Live x t := by
    intro t ht
    rcases eq_or_ne t i.who with rfl | hne
    · exact hlive
    · rw [Live, hother t hne] at ht
      exact ht
  refine ⟨poolInv_step h.pool hlegal, ?_,
    fun t u ht hu => h.unique t u (hbefore t ht) (hbefore u hu),
    fun t ht => h.hash t (hbefore t ht), fun t ht => ?_, h.running⟩
  · cases hafter : (transition x.pool i).tcb.inHtable with
    | true =>
        have htable : (movePool x i).htable = x.htable := by
          simp [movePool, hafter]
        rw [htable]
        refine h.table.congr (fun t => ⟨hbefore t, fun ht => ?_⟩) fun _ _ => rfl
        rcases eq_or_ne t i.who with rfl | hne
        · rw [Live, hself, hafter]
        · rw [Live, hother t hne]
          exact ht
    | false =>
        have htable : (movePool x i).htable = tlkpDeleteTcb x i.who := by
          have hlive' : (x.pool.tcb i.who).inHtable = true := hlive
          simp [movePool, hafter, hlive']
        rw [htable]
        refine h.table.remove (by rw [Live, hself, hafter]; simp) fun t ht => ?_
        rw [Live, hother t ht, Live]
  · have hx := h.listen t (hbefore t ht)
    rcases eq_or_ne t i.who with rfl | hne
    · rw [Live, hself] at ht
      rw [hself, hstate ht]
      exact hx
    · rw [hother t hne]
      exact hx

/-- A control block that is added to the table under a key that nobody has. -/
theorem appear_inv
    {x : Stack ι} {i : PoolInput ι} {key : ConnKey}
    (h : StackInv toeplitz x)
    (hlegal : PoolLegal x.pool i)
    (hdead : ¬ Live x i.who)
    (hfresh : ∀ t, Live x t → (x.l4cb t).key ≠ key)
    (hlive : (transition x.pool i).tcb.inHtable = true)
    (hstate : (transition x.pool i).tcb.state = .listen ↔ isActive key = false) :
    StackInv toeplitz
      (movePool
        (tlkpAddTcb x i.who { key := key, rxHash := tlkpCalcConnectionHash toeplitz key }) i) := by
  set cb : L4Cb := { key := key, rxHash := tlkpCalcConnectionHash toeplitz key } with hcb
  set x' := movePool (tlkpAddTcb x i.who cb) i with hx'
  have hself : x'.pool.tcb i.who = (transition x.pool i).tcb := Function.update_self _ _ _
  have hother : ∀ t, t ≠ i.who → x'.pool.tcb t = x.pool.tcb t :=
    fun t ht => Function.update_of_ne ht _ _
  have hcbself : x'.l4cb i.who = cb := Function.update_self _ _ _
  have hcbother : ∀ t, t ≠ i.who → x'.l4cb t = x.l4cb t :=
    fun t ht => Function.update_of_ne ht _ _
  have hliveself : Live x' i.who := by
    rw [Live, hself]
    exact hlive
  have hliveother : ∀ t, t ≠ i.who → (Live x' t ↔ Live x t) := by
    intro t ht
    rw [Live, hother t ht, Live]
  have htable : x'.htable = insertHead x.htable (bucketOf (x'.l4cb i.who)) i.who := by
    have hdead' : (x.pool.tcb i.who).inHtable = false := by simpa [Live] using hdead
    simp [hx', movePool, tlkpAddTcb, hdead']
  refine ⟨poolInv_step h.pool hlegal, ?_, fun t u ht hu hkey => ?_, fun t ht => ?_,
    fun t ht => ?_, h.running⟩
  · have hslot : ∀ t, t ≠ i.who → bucketOf (x'.l4cb t) = bucketOf (x.l4cb t) := by
      intro t ht
      rw [hcbother t ht]
    rw [htable]
    exact h.table.insert hdead hliveself hliveother hslot
  · rcases eq_or_ne t i.who with rfl | hnt
    · rcases eq_or_ne u i.who with rfl | hnu
      · rfl
      · rw [hcbself, hcbother u hnu] at hkey
        exact absurd hkey.symm (hfresh u ((hliveother u hnu).1 hu))
    · rcases eq_or_ne u i.who with rfl | hnu
      · rw [hcbself, hcbother t hnt] at hkey
        exact absurd hkey (hfresh t ((hliveother t hnt).1 ht))
      · rw [hcbother t hnt, hcbother u hnu] at hkey
        exact h.unique t u ((hliveother t hnt).1 ht) ((hliveother u hnu).1 hu) hkey
  · rcases eq_or_ne t i.who with rfl | hnt
    · rw [hcbself]
    · rw [hcbother t hnt]
      exact h.hash t ((hliveother t hnt).1 ht)
  · rcases eq_or_ne t i.who with rfl | hnt
    · rw [hself, hcbself]
      exact hstate
    · rw [hother t hnt, hcbother t hnt]
      exact h.listen t ((hliveother t hnt).1 ht)

theorem openStep_inv
    {x : Stack ι} {i : StackInput ι} {who : ι} {key : ConnKey} {cfg : TcpConfig}
    (h : StackInv toeplitz x)
    (hdead : (x.pool.tcb who).inHtable = false)
    (hcfg : ConfigOk cfg)
    (hfresh : findKey toeplitz x key = none) :
    StackInv toeplitz (openStep toeplitz x i who key cfg) := by
  have hlegal : PoolLegal x.pool (i.member who who cfg (.open (isActive key))) := ⟨hdead, hcfg⟩
  obtain ⟨hlive, hstate⟩ := opened_state
    ((i.member who who cfg (.open (isActive key))).input.env cfg) (isActive key)
    (Tsm.start (x.pool.tcb who))
  have hnotlive : ¬ Live x who := by simpa [Live] using hdead
  exact appear_inv h hlegal hnotlive ((find_none h).1 hfresh) hlive hstate

theorem acceptStep_inv
    {x : Stack ι} {i : StackInput ι} {n t : ι} {pkt : RxPkt}
    (h : StackInv toeplitz x)
    (hlive : Live x t)
    (hlisten : (x.pool.tcb t).state = .listen)
    (hdead : (x.pool.tcb n).inHtable = false)
    (hsyn : clones pkt.pcb = true)
    (hkey : (x.l4cb t).key = pkt.listenKey)
    (hfresh : findSession toeplitz x pkt = none)
    (hsource : isActive pkt.sessionKey = true) :
    StackInv toeplitz
      (movePool (tlkpAddTcb x n (cloneCb toeplitz (x.l4cb t) pkt))
        (i.member n t defaultConfig (.accept pkt.pcb))) := by
  have hflag : pkt.pcb.flags.syn = true := by
    simp only [clones, Bool.and_eq_true] at hsyn
    exact hsyn.2
  have hclone : cloneCb toeplitz (x.l4cb t) pkt =
      { key := pkt.sessionKey
        rxHash := tlkpCalcConnectionHash toeplitz pkt.sessionKey } := by
    rw [cloneCb, hkey]
    rfl
  have hlegal : PoolLegal x.pool (i.member n t defaultConfig (.accept pkt.pcb)) :=
    ⟨⟨hdead, hflag⟩, hlive, hlisten⟩
  have heq := transition_eq h.pool hlegal
  obtain ⟨hafter, hstate⟩ := accepted_state
    ((i.member n t defaultConfig (.accept pkt.pcb)).input.env
      (poolCfg x.pool (i.member n t defaultConfig (.accept pkt.pcb)))) pkt.pcb
  rw [hclone]
  refine appear_inv h hlegal (by simpa [Live, StackInput.member] using hdead) ?_ ?_ ?_
  · rw [findSession_eq] at hfresh
    exact (find_none h).1 hfresh
  · rw [heq]
    exact hafter
  · rw [heq, hsource]
    have hne : (connStep (poolCfg x.pool (i.member n t defaultConfig (.accept pkt.pcb)))
        (x.pool.tcb (i.member n t defaultConfig (.accept pkt.pcb)).who)
        (i.member n t defaultConfig (.accept pkt.pcb)).input).tcb.state = .synRecv := hstate
    simp [hne]

/-- An event of one control block. -/
theorem ownStep_inv
    {x : Stack ι} {i : StackInput ι} {who : ι} {event : ConnEvent}
    (h : StackInv toeplitz x)
    (hlegal : PoolLegal x.pool (i.own who event))
    (hevent : goesOn event = true ∨ event = .purge) :
    StackInv toeplitz (movePool x (i.own who event)) := by
  rcases hevent with hgoes | rfl
  · exact movePool_inv h hlegal (live_of_goesOn (h.pool.who hlegal) hlegal.1 hgoes)
      fun hafter => listens_iff h hlegal hgoes hafter
  · have hdead : (transition x.pool (i.own who .purge)).tcb.inHtable = false :=
      (tcpSilentClose_dead _).1
    refine movePool_inv h hlegal hlegal.1 fun hafter => ?_
    rw [hdead] at hafter
    cases hafter

/-- Receiving any packet but a SYN from zero for a listening control block. -/
theorem receiveStep_inv
    {x : Stack ι} {i : StackInput ι} {pkt : RxPkt} {new : Option ι}
    (h : StackInv toeplitz x)
    (hdead : ∀ n ∈ new, (x.pool.tcb n).inHtable = false)
    (hzero : ¬ (ZeroSource pkt ∧ findSession toeplitz x pkt ≠ none ∧ new ≠ none)) :
    StackInv toeplitz (tcpReceivePkt toeplitz x i pkt new) := by
  have hok := h.lookupOk
  unfold tcpReceivePkt
  cases hlookup : tcpReceiveLookup toeplitz x pkt with
  | abort =>
      exact absurd hlookup (hok.neverAborts pkt)
  | nobody =>
      exact h
  | tcb t =>
      obtain ⟨hlive, hkey⟩ := hok.reaches pkt t hlookup
      simp only
      split
      · rename_i hclone
        cases new with
        | none =>
            exact h
        | some n =>
            have hlisten := (h.listen t hlive).1 hclone.1
            -- the search for the session has not found the listening control block itself
            have hnotfound : findSession toeplitz x pkt = none := by
              by_contra hfound
              rcases hkey with hkey | ⟨-, -, hnobody⟩
              · rw [hkey, isActive, Bool.or_eq_false_iff, decide_eq_false_iff_not,
                  decide_eq_false_iff_not, not_not, not_not] at hlisten
                exact hzero ⟨⟨hlisten.1, hlisten.2, hclone.2⟩, hfound, by simp⟩
              · rw [findSession_eq] at hfound
                exact hfound ((find_none h).2 hnobody)
            rcases hkey with hkey | ⟨-, hkey, -⟩
            · have hfound := (hok.session pkt t).2 ⟨hlive, hkey⟩
              rw [hnotfound] at hfound
              cases hfound
            · refine acceptStep_inv h hlive hclone.1 (hdead n rfl) hclone.2 hkey hnotfound ?_
              by_contra hsource
              rw [Bool.not_eq_true, isActive, Bool.or_eq_false_iff, decide_eq_false_iff_not,
                decide_eq_false_iff_not, not_not, not_not] at hsource
              have hsame : pkt.listenKey = pkt.sessionKey := by
                rw [RxPkt.listenKey, ← hsource.1, ← hsource.2]
              have hfound := (hok.session pkt t).2 ⟨hlive, hkey.trans hsame⟩
              rw [hnotfound] at hfound
              cases hfound
      · exact ownStep_inv h ⟨hlive, trivial⟩ (Or.inl rfl)

theorem stackInv_step
    {x : Stack ι} {i : StackInput ι}
    (h : StackInv toeplitz x)
    (hkeeps : KeepsLookup toeplitz x i) :
    StackInv toeplitz (stackStep toeplitz x i) := by
  obtain ⟨hlegal, hkey⟩ := hkeeps
  unfold StackLegal at hlegal
  unfold stackStep
  cases hevent : i.event with
  | «open» who key cfg =>
      simp only [hevent] at hlegal hkey
      exact openStep_inv h hlegal.1 hlegal.2 hkey
  | receive pkt new =>
      simp only [hevent] at hlegal hkey
      exact receiveStep_inv h hlegal hkey
  | send who data =>
      simp only [hevent] at hlegal
      exact ownStep_inv h hlegal (Or.inl rfl)
  | close who =>
      simp only [hevent] at hlegal
      exact ownStep_inv h hlegal (Or.inl rfl)
  | rtoTimer who =>
      simp only [hevent] at hlegal
      exact ownStep_inv h hlegal (Or.inl rfl)
  | slowTimer who =>
      simp only [hevent] at hlegal
      exact ownStep_inv h hlegal (Or.inl rfl)
  | purge who =>
      simp only [hevent] at hlegal
      exact ownStep_inv h hlegal (Or.inr rfl)

/--
In every run whose opens and SYNs keep the keys apart, the lookups are right after every step,
whatever the hash is and whatever packets arrive.
-/
theorem lookup_ok
    (toeplitz : Toeplitz) {is : List (StackInput ι)}
    (hrun : Guarded (stackStep toeplitz) (KeepsLookup toeplitz) (Stack.blank ι) is) :
    LookupOk toeplitz (run (stackStep toeplitz) (Stack.blank ι) is) :=
  (run_invariant (StackInv toeplitz) (fun _ _ => stackInv_step) stackInv_blank hrun).lookupOk

end Invariant

section Inputs

/-- An event in an environment where nothing fails. -/
def plainStack (event : StackEvent (Fin 3)) : StackInput (Fin 3) :=
  { event := event
    answer := fun _ bytes => .consume (BitVec.ofNat 32 bytes.length)
    sendOk := fun _ => true
    dataPending := false }

/-- A listening control block on port 80 of an address. -/
def listenOn : StackInput (Fin 3) :=
  plainStack (.open 0
    { iface := 0, srcAddr := 0x0A000001, srcPort := 80, dstAddr := 0, dstPort := 0 }
    defaultConfig)

/-- A SYN for it. -/
def synFrom (addr : U32) (port : BitVec 16) (new : Option (Fin 3)) : StackInput (Fin 3) :=
  plainStack (.receive
    { port := 0, srcAddr := addr, dstAddr := 0x0A000001, srcPort := port, dstPort := 80
      pcb := plainPcb 100 0 { syn := true } [] } new)

/-- A hash that is the same for every packet of a pair of hosts. -/
def xorHash (a b : U32) (_ _ : BitVec 16) : U32 :=
  a ^^^ b

theorem lookup_ok_twoClients :
    LookupOk xorHash (run (stackStep xorHash) (Stack.blank (Fin 3))
      [listenOn, synFrom 0x0A000002 1000 (some 1), synFrom 0x0A000002 1001 (some 2),
        synFrom 0x0A000002 1000 none]) :=
  lookup_ok xorHash (by decide +kernel)

/-- The clone for a SYN from zero is what the next SYN finds in place of the listener. -/
theorem zeroSource_aborts :
    Guarded (stackStep xorHash) StackLegal (Stack.blank (Fin 3))
      [listenOn, synFrom 0 0 (some 1), synFrom 0x0A000002 1000 (some 2)] ∧
    ¬ LookupOk xorHash (run (stackStep xorHash) (Stack.blank (Fin 3))
      [listenOn, synFrom 0 0 (some 1)]) ∧
    (run (stackStep xorHash) (Stack.blank (Fin 3))
      [listenOn, synFrom 0 0 (some 1), synFrom 0x0A000002 1000 (some 2)]).aborted = true := by
  refine ⟨by decide +kernel, fun h => ?_, by decide +kernel⟩
  have hstate := h.listener
    { port := 0, srcAddr := 0x0A000002, dstAddr := 0x0A000001, srcPort := 1000, dstPort := 80
      pcb := plainPcb 100 0 { syn := true } [] } 1 (by decide +kernel)
  revert hstate
  decide +kernel

end Inputs

end ListenerLookup
end Warp17
