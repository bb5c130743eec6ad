import Warp17.GuardedRuns

/-!
# Messages between the cores

A core sends a message through the ring of another core, or through its own local ring, and may
wait for it; the state word of the message says when it was processed.  The receiver takes
messages from its rings, hands them to the handlers, and frees them or marks them as dequeued.
A handler that returns `-EAGAIN` has its message posted again.

What a core is doing is a stack: a handler may send messages and wait for them.  The rings have
a capacity; a blocking send that finds its ring full is the step that happens when there is
room.  Each message comes with a ledger of what happened to it, for the statements only.

**Results**
- `msgs_ok`: in every run whose messages all have a handler, and whose marked messages are not
  posted again, each posting is handed over once, waiting senders are released in time, and
  marked messages are freed once.
- `repostedMark_lost`: a marked message that is posted again is never freed.
-/

namespace Warp17
namespace CoreMessages

open GuardedRuns

section Source

abbrev Core := BitVec 8

/-- The address of a message; an address is not used again after a free. -/
abbrev Ptr := Nat

def enoent : Int := 2
def eagain : Int := 11
def einval : Int := 22
def eaddrnotavail : Int := 99
def enobufs : Int := 105

/-- `msg_states_t`. -/
inductive MsgState
  | init
  | queued
  | dequeued
deriving DecidableEq, Repr

/-- `msg_t`, with its flags. -/
structure Msg where
  msgId : BitVec 16
  toFree : Bool
  isLocal : Bool
  destLcore : Core
  state : MsgState
deriving DecidableEq, Repr

/-- A ring: `msg_queues[]` or `msg_local_queues[]` of a core. -/
structure RingId where
  core : Core
  isLocal : Bool
deriving DecidableEq, Repr

/-- What a core is in the middle of. -/
inductive Frame
  | handling (p : Ptr) (toFree : Bool)
  | waiting (p : Ptr) (toFree : Bool)
deriving DecidableEq, Repr

/-- The cores, the size of the rings, and the handlers that are registered. -/
structure Platform where
  rteMaxLcore : Nat
  lcoreIndex : Core → Option Nat
  hasQueue : Core → Bool
  capacity : Nat
  msgHandlerMap : Nat → Nat → Bool

/-- The memory, the rings and the cores. -/
structure Sys where
  mem : Ptr → Option Msg
  ring : RingId → List Ptr
  stack : Core → List Frame

/-- `MSG_SND_FLAG_NOBLOCK` and `MSG_SND_FLAG_NOWAIT`. -/
structure SndFlags where
  noblock : Bool
  nowait : Bool
deriving DecidableEq, Repr

/-- How a send ends; a blocking one may spin on a full ring. -/
inductive SendResult
  | spinning
  | error (e : Int)
  | sent
deriving DecidableEq, Repr

def Sys.store (s : Sys) (p : Ptr) (msg : Option Msg) : Sys :=
  { s with mem := Function.update s.mem p msg }

def Sys.enqueue (s : Sys) (r : RingId) (p : Ptr) : Sys :=
  { s with ring := Function.update s.ring r (s.ring r ++ [p]) }

def Sys.setStack (s : Sys) (c : Core) (frames : List Frame) : Sys :=
  { s with stack := Function.update s.stack c frames }

/-- `msg_do_send()`; a sender that waits goes on when it sees the message dequeued. -/
def msgDoSend (P : Platform) (s : Sys) (c : Core) (p : Ptr) (msg : Msg) (r : RingId)
    (flags : SndFlags) : SendResult × Sys :=
  let toFree := msg.toFree
  let msg := if !flags.nowait && toFree then { msg with toFree := false } else msg
  let s := s.store p (some { msg with state := .queued })
  if (s.ring r).length < P.capacity then
    let s := s.enqueue r p
    if flags.nowait then
      (.sent, s)
    else
      (.sent, s.setStack c (.waiting p toFree :: s.stack c))
  else if flags.noblock then
    (.error (-enobufs), s)
  else
    (.spinning, s)

/-- `msg_send_local()`. -/
def msgSendLocal (P : Platform) (s : Sys) (c : Core) (p : Ptr) (msg : Msg) (flags : SndFlags) :
    SendResult × Sys :=
  if P.rteMaxLcore < msg.destLcore.toNat then
    (.error (-einval), s)
  else if (P.lcoreIndex msg.destLcore).isNone then
    (.error (-einval), s)
  else
    msgDoSend P s c p msg { core := msg.destLcore, isLocal := true } flags

/-- `msg_send_remote()`. -/
def msgSendRemote (P : Platform) (s : Sys) (c : Core) (p : Ptr) (msg : Msg) (flags : SndFlags) :
    SendResult × Sys :=
  if P.rteMaxLcore < msg.destLcore.toNat then
    (.error (-einval), s)
  else if (P.lcoreIndex msg.destLcore).isNone then
    (.error (-einval), s)
  else if !P.hasQueue msg.destLcore then
    (.error (-eaddrnotavail), s)
  else
    msgDoSend P s c p msg { core := msg.destLcore, isLocal := false } flags

/-- `msg_send()`. -/
def msgSend (P : Platform) (s : Sys) (c : Core) (p : Ptr) (msg : Msg) (flags : SndFlags) :
    SendResult × Sys :=
  if msg.isLocal then
    msgSendLocal P s c p msg flags
  else
    msgSendRemote P s c p msg flags

/-- `MSG_MODULE_MAX`. -/
def msgModuleMax : Nat := 7

/-- `MSG_PER_MODULE_MAX_MSGIDS`. -/
def msgPerModuleMaxMsgids : Nat := 2 ^ 8

/-- The checks of `msg_process()`, in front of the handler. -/
def msgProcessCheck (P : Platform) (msgId : BitVec 16) : Option Int :=
  let module := msgId.toNat / msgPerModuleMaxMsgids
  let id := msgId.toNat % msgPerModuleMaxMsgids
  if msgModuleMax ≤ module then
    some (-einval)
  else if msgPerModuleMaxMsgids ≤ id then
    some (-einval)
  else if !P.msgHandlerMap module id then
    some (-enoent)
  else
    none

/-- The end of `msg_process()`: the message is handed back, or freed. -/
def msgProcessDone (s : Sys) (p : Ptr) (msg : Msg) (toFree : Bool) : Sys :=
  if !toFree then
    s.store p (some { msg with state := .dequeued })
  else
    s.store p none

/-- `msg_process()` behind the handler, by what the handler returned. -/
def msgProcessResult (P : Platform) (s : Sys) (c : Core) (p : Ptr) (msg : Msg) (toFree : Bool)
    (error : Int) : SendResult × Sys :=
  if error = -eagain then
    let msg := { msg with toFree := false }
    match msgSendLocal P (s.store p (some msg)) c p msg { noblock := false, nowait := true } with
    | (.error e, s) => (.error e, msgProcessDone s p msg toFree)
    | posted => posted
  else
    (.error error, msgProcessDone s p msg toFree)

end Source

section Runs

/-- Where a message is. -/
inductive Place
  | own
  | queued (r : RingId)
  | handled (c : Core) (toFree : Bool)
deriving DecidableEq, Repr

/-- What happened to a message. -/
structure Ledger where
  posted : Nat
  handed : Nat
  freed : Nat
  finished : Bool
  marked : Bool
  place : Place
  waiter : Option (Core × Bool)
deriving DecidableEq, Repr

/-- The system, the ledgers, and whether a receiver touched what it must not touch. -/
structure MsgRun where
  sys : Sys
  ledger : Ptr → Ledger
  fault : Bool

/-- What the cores do next. -/
inductive MsgEvent
  | init (p : Ptr) (msg : Msg)
  | free (p : Ptr)
  | send (c : Core) (p : Ptr) (flags : SndFlags)
  | spin (c : Core)
  | poll (c : Core) (isLocal : Bool)
  | result (c : Core) (error : Int)
deriving DecidableEq, Repr

/-- The application owns the message: nobody else has it. -/
def Owned (l : Ledger) : Prop :=
  l.place = .own ∧ l.waiter = none ∧ l.freed = 0

instance (l : Ledger) : Decidable (Owned l) :=
  inferInstanceAs (Decidable (_ ∧ _))

/-- A core that waits does nothing else. -/
def mayRun : List Frame → Bool
  | .waiting _ _ :: _ => false
  | _ => true

def MsgRun.record (s : MsgRun) (sys : Sys) (p : Ptr) (l : Ledger) : MsgRun :=
  { s with sys := sys, ledger := Function.update s.ledger p l }

/-- The owner of a message sends it. -/
def sendStep (P : Platform) (s : MsgRun) (c : Core) (p : Ptr) (flags : SndFlags) : MsgRun :=
  match s.sys.mem p with
  | none => s
  | some msg =>
      if mayRun (s.sys.stack c) ∧ Owned (s.ledger p) then
        match msgSend P s.sys c p msg flags with
        | (.sent, sys) =>
            s.record sys p
              { s.ledger p with
                posted := (s.ledger p).posted + 1
                finished := false
                marked := msg.toFree
                place := .queued { core := msg.destLcore, isLocal := msg.isLocal }
                waiter := if flags.nowait then none else some (c, msg.toFree) }
        | (.error _, sys) => { s with sys := sys }
        | (.spinning, _) => s
      else
        s

/-- A waiting sender looks at the state word. -/
def spinStep (s : MsgRun) (c : Core) : MsgRun :=
  match s.sys.stack c with
  | .waiting p toFree :: frames =>
      match s.sys.mem p with
      | none => { s with fault := true }
      | some msg =>
          if msg.state = .dequeued then
            if toFree then
              s.record ((s.sys.store p none).setStack c frames) p
                { s.ledger p with waiter := none, freed := (s.ledger p).freed + 1 }
            else
              s.record ((s.sys.store p (some { msg with state := .init })).setStack c frames) p
                { s.ledger p with waiter := none }
          else
            s
  | _ => s

/-- An idle core polls one of its rings: `msg_poll_queue()` up to the handler. -/
def pollStep (P : Platform) (s : MsgRun) (c : Core) (isLocal : Bool) : MsgRun :=
  match s.sys.stack c, s.sys.ring { core := c, isLocal := isLocal } with
  | [], p :: rest =>
      let sys := { s.sys with
        ring := Function.update s.sys.ring { core := c, isLocal := isLocal } rest }
      match s.sys.mem p with
      | none => { s with sys := sys, fault := true }
      | some msg =>
          match msgProcessCheck P msg.msgId with
          | some _ => s.record sys p { s.ledger p with finished := true, place := .own }
          | none =>
              let s := s.record (sys.setStack c [.handling p msg.toFree]) p
                { s.ledger p with
                  handed := (s.ledger p).handed + 1
                  place := .handled c msg.toFree }
              { s with fault := s.fault || decide (msg.state ≠ .queued) }
  | _, _ => s

/-- A handler returns. -/
def resultStep (P : Platform) (s : MsgRun) (c : Core) (error : Int) : MsgRun :=
  match s.sys.stack c with
  | .handling p toFree :: frames =>
      match s.sys.mem p with
      | none => { s with fault := true }
      | some msg =>
          let s := { s with fault := s.fault || decide (msg.state ≠ .queued) }
          match msgProcessResult P s.sys c p msg toFree error with
          | (.sent, sys) =>
              s.record (sys.setStack c frames) p
                { s.ledger p with
                  posted := (s.ledger p).posted + 1
                  place := .queued { core := msg.destLcore, isLocal := true } }
          | (.error _, sys) =>
              s.record (sys.setStack c frames) p
                { s.ledger p with
                  finished := true
                  place := .own
                  freed := (s.ledger p).freed + if toFree then 1 else 0 }
          | (.spinning, _) => s
  | _ => s

/-- One step; only its owner may set up a message, free it or send it. -/
def msgStep (P : Platform) (s : MsgRun) : MsgEvent → MsgRun
  | .init p msg =>
      if Owned (s.ledger p) then
        s.record (s.sys.store p (some { msg with state := .init })) p
          { s.ledger p with finished := false, marked := false }
      else
        s
  | .free p =>
      if Owned (s.ledger p) then { s with sys := s.sys.store p none } else s
  | .send c p flags => sendStep P s c p flags
  | .spin c => spinStep s c
  | .poll c isLocal => pollStep P s c isLocal
  | .result c error => resultStep P s c error

/-- Nothing was sent yet. -/
def msgInit : MsgRun :=
  { sys := { mem := fun _ => none, ring := fun _ => [], stack := fun _ => [] }
    ledger := fun _ =>
      { posted := 0, handed := 0, freed := 0, finished := false, marked := false
        place := .own, waiter := none }
    fault := false }

/-- The message that is polled has a handler, and one that is marked is not posted again. -/
def MsgMeets (P : Platform) (s : MsgRun) : MsgEvent → Prop
  | .poll c isLocal =>
      match s.sys.stack c,
        (s.sys.ring { core := c, isLocal := isLocal }).head?.bind s.sys.mem with
      | [], some msg => msgProcessCheck P msg.msgId = none
      | _, _ => True
  | .result c error =>
      match s.sys.stack c with
      | .handling _ toFree :: _ => error = -eagain → toFree = false
      | _ => True
  | _ => True

instance (P : Platform) (s : MsgRun) (i : MsgEvent) : Decidable (MsgMeets P s i) := by
  unfold MsgMeets
  cases i <;> first
    | infer_instance
    | (dsimp only; split <;> infer_instance)

/-- Each posting is handed over once, and messages go back to where they belong. -/
structure MsgsOk (P : Platform) (s : MsgRun) : Prop where
  ringsOnce : ∀ r, (s.sys.ring r).Nodup
  oneRing : ∀ p r r', p ∈ s.sys.ring r → p ∈ s.sys.ring r' → r = r'
  waitsInRing : ∀ p r, p ∈ s.sys.ring r → (s.ledger p).posted = (s.ledger p).handed + 1
  handedOnce : ∀ p, (∀ r, p ∉ s.sys.ring r) → (s.ledger p).posted = (s.ledger p).handed
  released : ∀ c p toFree frames, s.sys.stack c = .waiting p toFree :: frames →
    ((msgStep P s (.spin c)).sys.stack c = frames ↔ (s.ledger p).finished = true)
  freedOnce : ∀ p, (s.ledger p).marked = true → (s.ledger p).finished = true →
    (∀ c toFree, .waiting p toFree ∉ s.sys.stack c) →
      (s.ledger p).freed = 1 ∧ s.sys.mem p = none
  notFreed : ∀ p, (s.ledger p).freed = 0 ∨ ((s.ledger p).freed = 1 ∧
    (s.ledger p).marked = true ∧ (s.ledger p).finished = true)
  safe : s.fault = false

end Runs

section Invariant

/-- A message can be posted to its core. -/
def Reaches (P : Platform) (c : Core) : Prop :=
  c.toNat ≤ P.rteMaxLcore ∧ (P.lcoreIndex c).isNone = false

/-- What a message and its ledger have in common, at any time. -/
structure PtrOk (P : Platform) (m : Option Msg) (l : Ledger) : Prop where
  counts : l.posted = l.handed + match l.place with | .queued _ => 1 | _ => 0
  busy : l.place ≠ .own → ∃ msg, m = some msg ∧ msg.state = .queued ∧
    Reaches P msg.destLcore ∧ l.finished = false ∧ l.freed = 0 ∧
    (l.waiter = none → l.marked = msg.toFree) ∧ (l.waiter ≠ none → msg.toFree = false) ∧
    ∀ c toFree, l.place = .handled c toFree → msg.toFree = toFree
  waited : ∀ c toFree, l.waiter = some (c, toFree) → l.marked = toFree ∧
    (l.place = .own → l.finished = true ∧ l.freed = 0 ∧
      ∃ msg, m = some msg ∧ msg.state = .dequeued)
  idle : l.place = .own → l.waiter = none → (l.freed = 0 ∧ l.marked = false) ∨
    (l.freed = 1 ∧ l.marked = true ∧ l.finished = true ∧ m = none)

/-- The rings and the stacks hold what the ledgers say. -/
structure MsgInv (P : Platform) (s : MsgRun) : Prop where
  ptr : ∀ p, PtrOk P (s.sys.mem p) (s.ledger p)
  rings : ∀ r p, (s.sys.ring r).count p = if (s.ledger p).place = .queued r then 1 else 0
  handling : ∀ c p toFree, (s.sys.stack c).count (.handling p toFree) =
    if (s.ledger p).place = .handled c toFree then 1 else 0
  waiting : ∀ c p toFree, (s.sys.stack c).count (.waiting p toFree) =
    if (s.ledger p).waiter = some (c, toFree) then 1 else 0
  safe : s.fault = false

variable {P : Platform} {s : MsgRun} {sys : Sys} {p : Ptr} {l : Ledger}

/-- A step is about one message. -/
theorem MsgInv.record
    (h : MsgInv P s)
    (hmem : ∀ q, q ≠ p → sys.mem q = s.sys.mem q)
    (hptr : PtrOk P (sys.mem p) l)
    (hring : ∀ r q, (sys.ring r).count q =
      if q = p then if l.place = .queued r then 1 else 0 else (s.sys.ring r).count q)
    (hhandling : ∀ c q toFree, (sys.stack c).count (.handling q toFree) =
      if q = p then if l.place = .handled c toFree then 1 else 0
      else (s.sys.stack c).count (.handling q toFree))
    (hwaiting : ∀ c q toFree, (sys.stack c).count (.waiting q toFree) =
      if q = p then if l.waiter = some (c, toFree) then 1 else 0
      else (s.sys.stack c).count (.waiting q toFree)) :
    MsgInv P (s.record sys p l) := by
  constructor
  · intro q
    by_cases hq : q = p
    · subst hq
      simpa [MsgRun.record] using hptr
    · simpa [MsgRun.record, hq, hmem q hq] using h.ptr q
  · intro r q
    rw [MsgRun.record]
    by_cases hq : q = p
    · subst hq
      simpa using hring r q
    · simpa [hq, h.rings r q] using hring r q
  · intro c q toFree
    rw [MsgRun.record]
    by_cases hq : q = p
    · subst hq
      simpa using hhandling c q toFree
    · simpa [hq, h.handling c q toFree] using hhandling c q toFree
  · intro c q toFree
    rw [MsgRun.record]
    by_cases hq : q = p
    · subst hq
      simpa using hwaiting c q toFree
    · simpa [hq, h.waiting c q toFree] using hwaiting c q toFree
  · exact h.safe

theorem count_push
    (c c' : Core) (f g : Frame) (stack : Core → List Frame) :
    (Function.update stack c (f :: stack c) c').count g =
      (stack c').count g + if c' = c ∧ f = g then 1 else 0 := by
  by_cases hc : c' = c
  · subst hc
    simp [List.count_cons]
  · simp [hc]

theorem count_pop
    {c : Core} {f : Frame} {frames : List Frame} {stack : Core → List Frame}
    (hstack : stack c = f :: frames)
    (c' : Core) (g : Frame) :
    (Function.update stack c frames c').count g + (if c' = c ∧ f = g then 1 else 0) =
      (stack c').count g := by
  by_cases hc : c' = c
  · subst hc
    simp [hstack, List.count_cons]
  · simp [hc]

theorem count_enqueue
    (r r' : RingId) (q : Ptr) (ring : RingId → List Ptr) :
    (Function.update ring r (ring r ++ [p]) r').count q =
      (ring r').count q + if r' = r ∧ p = q then 1 else 0 := by
  by_cases hr : r' = r
  · subst hr
    simp [List.count_cons]
  · simp [hr]

theorem count_dequeue
    {r : RingId} {rest : List Ptr} {ring : RingId → List Ptr}
    (hring : ring r = p :: rest)
    (r' : RingId) (q : Ptr) :
    (Function.update ring r rest r').count q + (if r' = r ∧ p = q then 1 else 0) =
      (ring r').count q := by
  by_cases hr : r' = r
  · subst hr
    simp [hring, List.count_cons]
  · simp [hr]

end Invariant

section Steps

variable {P : Platform} {s : MsgRun} {p : Ptr}

/-- A message as it is put into a ring. -/
def sentMsg (msg : Msg) (flags : SndFlags) : Msg :=
  { msg with toFree := msg.toFree && flags.nowait, state := .queued }

/-- The system after a message was put into a ring. -/
def sentSys (s : Sys) (c : Core) (p : Ptr) (msg : Msg) (r : RingId) (flags : SndFlags) : Sys :=
  { mem := Function.update s.mem p (some (sentMsg msg flags))
    ring := Function.update s.ring r (s.ring r ++ [p])
    stack :=
      if flags.nowait then s.stack
      else Function.update s.stack c (.waiting p msg.toFree :: s.stack c) }

theorem msgDoSend_cases
    (P : Platform) (s : Sys) (c : Core) (p : Ptr) (msg : Msg) (r : RingId) (flags : SndFlags) :
    msgDoSend P s c p msg r flags = (.sent, sentSys s c p msg r flags) ∨
      msgDoSend P s c p msg r flags =
        (.error (-enobufs), s.store p (some (sentMsg msg flags))) ∨
      (msgDoSend P s c p msg r flags).1 = .spinning := by
  have hmsg : { (if (!flags.nowait && msg.toFree) = true then { msg with toFree := false }
      else msg) with state := MsgState.queued } = sentMsg msg flags := by
    cases hwait : flags.nowait <;> cases hfree : msg.toFree <;> simp [sentMsg, hwait, hfree]
  unfold msgDoSend
  dsimp only
  rw [hmsg]
  split
  · refine .inl ?_
    cases hwait : flags.nowait <;> simp [sentSys, hwait, Sys.store, Sys.enqueue, Sys.setStack]
  · split
    · exact .inr (.inl rfl)
    · exact .inr (.inr rfl)

theorem msgSendLocal_cases
    (P : Platform) (s : Sys) (c : Core) (p : Ptr) (msg : Msg) (flags : SndFlags) :
    (Reaches P msg.destLcore ∧ msgSendLocal P s c p msg flags =
        (.sent, sentSys s c p msg { core := msg.destLcore, isLocal := true } flags)) ∨
      (∃ e sys, msgSendLocal P s c p msg flags = (.error e, sys) ∧
        (sys = s ∨ sys = s.store p (some (sentMsg msg flags)))) ∨
      (msgSendLocal P s c p msg flags).1 = .spinning := by
  unfold msgSendLocal
  split
  · exact .inr (.inl ⟨_, _, rfl, .inl rfl⟩)
  · rename_i hmax
    split
    · exact .inr (.inl ⟨_, _, rfl, .inl rfl⟩)
    · rename_i hindex
      obtain hsent | herror | hspin :=
        msgDoSend_cases P s c p msg { core := msg.destLcore, isLocal := true } flags
      · exact .inl ⟨⟨Nat.le_of_not_lt hmax, Bool.eq_false_iff.2 hindex⟩, hsent⟩
      · exact .inr (.inl ⟨_, _, herror, .inr rfl⟩)
      · exact .inr (.inr hspin)

theorem msgSend_cases
    (P : Platform) (s : Sys) (c : Core) (p : Ptr) (msg : Msg) (flags : SndFlags) :
    (Reaches P msg.destLcore ∧ msgSend P s c p msg flags =
        (.sent, sentSys s c p msg { core := msg.destLcore, isLocal := msg.isLocal } flags)) ∨
      (∃ e sys, msgSend P s c p msg flags = (.error e, sys) ∧
        (sys = s ∨ sys = s.store p (some (sentMsg msg flags)))) ∨
      (msgSend P s c p msg flags).1 = .spinning := by
  unfold msgSend
  cases hlocal : msg.isLocal with
  | true =>
      exact msgSendLocal_cases P s c p msg flags
  | false =>
      rw [if_neg Bool.false_ne_true]
      unfold msgSendRemote
      split
      · exact .inr (.inl ⟨_, _, rfl, .inl rfl⟩)
      · rename_i hmax
        split
        · exact .inr (.inl ⟨_, _, rfl, .inl rfl⟩)
        · rename_i hindex
          split
          · exact .inr (.inl ⟨_, _, rfl, .inl rfl⟩)
          · obtain hsent | herror | hspin :=
              msgDoSend_cases P s c p msg { core := msg.destLcore, isLocal := false } flags
            · exact .inl ⟨⟨Nat.le_of_not_lt hmax, Bool.eq_false_iff.2 hindex⟩, hsent⟩
            · exact .inr (.inl ⟨_, _, herror, .inr rfl⟩)
            · exact .inr (.inr hspin)

theorem PtrOk.unmarked
    {m : Option Msg} {l : Ledger}
    (h : PtrOk P m l)
    (hown : Owned l) :
    l.marked = false ∧ l.posted = l.handed := by
  obtain ⟨hplace, hwaiter, hfreed⟩ := hown
  have hcounts := h.counts
  rw [hplace] at hcounts
  refine ⟨?_, hcounts⟩
  obtain ⟨-, hmarked⟩ | ⟨hone, -⟩ := h.idle hplace hwaiter
  · exact hmarked
  · omega

theorem ptrOk_owned
    {m : Option Msg} {l : Ledger}
    (hown : Owned l)
    (hmarked : l.marked = false)
    (hcounts : l.posted = l.handed) :
    PtrOk P m l := by
  obtain ⟨hplace, hwaiter, hfreed⟩ := hown
  constructor
  · rw [hplace]
    exact hcounts
  · exact fun hbusy => absurd hplace hbusy
  · intro c toFree hwait
    rw [hwaiter] at hwait
    cases hwait
  · exact fun _ _ => .inl ⟨hfreed, hmarked⟩

/-- The owner of a message may change it. -/
theorem msgInv_store
    (h : MsgInv P s) (p : Ptr) (m : Option Msg)
    (hown : Owned (s.ledger p)) :
    MsgInv P { s with sys := s.sys.store p m } := by
  refine ⟨fun q => ?_, h.rings, h.handling, h.waiting, h.safe⟩
  by_cases hq : q = p
  · subst hq
    obtain ⟨hmarked, hcounts⟩ := (h.ptr q).unmarked hown
    exact ptrOk_owned hown hmarked hcounts
  · have hsame : (s.sys.store p m).mem q = s.sys.mem q := Function.update_of_ne hq _ _
    dsimp only
    rw [hsame]
    exact h.ptr q

theorem msgInv_init
    (h : MsgInv P s) (p : Ptr) (msg : Msg) :
    MsgInv P (msgStep P s (.init p msg)) := by
  rw [msgStep]
  split
  · rename_i hown
    obtain ⟨hmarked, hcounts⟩ := (h.ptr p).unmarked hown
    refine h.record (fun q hq => Function.update_of_ne hq _ _) (ptrOk_owned hown rfl hcounts)
      (fun r q => ?_) (fun c q toFree => ?_) fun c q toFree => ?_
    · split
      · rename_i hq
        exact hq ▸ h.rings r q
      · rfl
    · split
      · rename_i hq
        exact hq ▸ h.handling c q toFree
      · rfl
    · split
      · rename_i hq
        exact hq ▸ h.waiting c q toFree
      · rfl
  · exact h

theorem msgInv_free
    (h : MsgInv P s) (p : Ptr) :
    MsgInv P (msgStep P s (.free p)) := by
  rw [msgStep]
  split
  · rename_i hown
    exact msgInv_store h p none hown
  · exact h

theorem count_sentSys
    (s : Sys) (c c' : Core) (p : Ptr) (msg : Msg) (r : RingId) (flags : SndFlags) (f : Frame) :
    ((sentSys s c p msg r flags).stack c').count f =
      (s.stack c').count f +
        if flags.nowait = false ∧ c' = c ∧ .waiting p msg.toFree = f then 1 else 0 := by
  cases hwait : flags.nowait with
  | true =>
      simp [sentSys, hwait]
  | false =>
      simp only [sentSys, hwait, Bool.false_eq_true, if_false, true_and]
      exact count_push _ _ _ _ _

/-- A message that was just put into a ring. -/
theorem ptrOk_sent
    {c : Core} {r : RingId} {msg : Msg} {flags : SndFlags} {l : Ledger}
    (hreach : Reaches P msg.destLcore)
    (hcounts : l.posted = l.handed)
    (hfreed : l.freed = 0) :
    PtrOk P ((sentSys s.sys c p msg r flags).mem p)
      { l with
        posted := l.posted + 1
        finished := false
        marked := msg.toFree
        place := .queued r
        waiter := if flags.nowait then none else some (c, msg.toFree) } := by
  have hmem : (sentSys s.sys c p msg r flags).mem p = some (sentMsg msg flags) :=
    Function.update_self _ _ _
  constructor
  · exact congrArg (· + 1) hcounts
  · intro _
    refine ⟨_, hmem, rfl, hreach, rfl, hfreed, fun hnone => ?_, fun hsome => ?_,
      fun _ _ hplace => nomatch hplace⟩
    · cases hwait : flags.nowait with
      | true => simp [sentMsg, hwait]
      | false => simp [hwait] at hnone
    · cases hwait : flags.nowait with
      | true => simp [hwait] at hsome
      | false => simp [sentMsg, hwait]
  · intro c' toFree hsome
    cases hwait : flags.nowait with
    | true => simp [hwait] at hsome
    | false =>
        simp only [hwait, Bool.false_eq_true, if_false, Option.some.injEq, Prod.mk.injEq] at hsome
        exact ⟨hsome.2, fun hown => nomatch hown⟩
  · exact fun hown => nomatch hown

theorem msgInv_send
    (h : MsgInv P s) (c : Core) (p : Ptr) (flags : SndFlags) :
    MsgInv P (msgStep P s (.send c p flags)) := by
  rw [msgStep, sendStep]
  split
  · exact h
  · rename_i msg hmem
    split
    · rename_i hmay
      obtain ⟨-, hown⟩ := hmay
      obtain ⟨hmarked, hcounts⟩ := (h.ptr p).unmarked hown
      obtain ⟨hplace, hwaiter, hfreed⟩ := hown
      obtain ⟨hreach, hsent⟩ | ⟨e, sys, herror, hsys⟩ | hspin :=
        msgSend_cases P s.sys c p msg flags
      · rw [hsent]
        refine h.record (fun q hq => Function.update_of_ne hq _ _) ?_ (fun r q => ?_)
          (fun c' q toFree => ?_) fun c' q toFree => ?_
        · exact ptrOk_sent hreach hcounts hfreed
        · have hold := h.rings r q
          simp only [sentSys]
          rw [count_enqueue]
          by_cases hq : q = p
          · subst hq
            rw [hold, hplace, if_pos rfl]
            simp [eq_comm]
          · rw [if_neg hq, if_neg fun hboth => hq hboth.2.symm, Nat.add_zero]
        · have hold := h.handling c' q toFree
          rw [count_sentSys, if_neg fun hboth => nomatch hboth.2.2]
          by_cases hq : q = p
          · subst hq
            rw [hold, hplace, if_pos rfl]
            rfl
          · rw [if_neg hq]
            rfl
        · have hold := h.waiting c' q toFree
          rw [count_sentSys]
          by_cases hq : q = p
          · subst hq
            rw [hold, hwaiter, if_pos rfl]
            cases hwait : flags.nowait <;> simp [eq_comm]
          · rw [if_neg hq, if_neg fun hboth => hq (Frame.waiting.inj hboth.2.2).1.symm,
              Nat.add_zero]
      · rw [herror]
        obtain rfl | rfl := hsys
        · exact h
        · exact msgInv_store h p _ ⟨hplace, hwaiter, hfreed⟩
      · split
        · rename_i hsent
          rw [hsent] at hspin
          cases hspin
        · rename_i herror
          rw [herror] at hspin
          cases hspin
        · exact h
    · exact h

/-- A sender stops waiting. -/
theorem msgInv_release
    {c : Core} {toFree : Bool} {frames : List Frame} {m : Option Msg} {l : Ledger}
    (h : MsgInv P s)
    (hstack : s.sys.stack c = .waiting p toFree :: frames)
    (hplace : l.place = (s.ledger p).place)
    (hwaiter : (s.ledger p).waiter = some (c, toFree))
    (hnone : l.waiter = none)
    (hptr : PtrOk P m l) :
    MsgInv P (s.record ((s.sys.store p m).setStack c frames) p l) := by
  have hmem : ((s.sys.store p m).setStack c frames).mem p = m := Function.update_self _ _ _
  refine h.record (fun q hq => Function.update_of_ne hq _ _) (hmem.symm ▸ hptr)
    (fun r q => ?_) (fun c' q toFree' => ?_) fun c' q toFree' => ?_
  · split
    · rename_i hq
      rw [hplace]
      exact hq ▸ h.rings r q
    · rfl
  · have hpop := count_pop hstack c' (.handling q toFree')
    rw [if_neg fun hboth => nomatch hboth.2] at hpop
    split
    · rename_i hq
      rw [hplace]
      exact hpop.trans (hq ▸ h.handling c' q toFree')
    · exact hpop
  · have hpop := count_pop hstack c' (.waiting q toFree')
    have hold := h.waiting c' q toFree'
    by_cases hq : q = p
    · subst hq
      rw [if_pos rfl, hnone]
      rw [hwaiter] at hold
      simp only [Option.some.injEq, Prod.mk.injEq] at hold
      simp only [Frame.waiting.injEq, true_and] at hpop
      rw [hold] at hpop
      by_cases hboth : c = c' ∧ toFree = toFree'
      · rw [if_pos hboth, if_pos ⟨hboth.1.symm, hboth.2⟩] at hpop
        exact Nat.succ.inj hpop
      · rw [if_neg hboth, if_neg fun hother => hboth ⟨hother.1.symm, hother.2⟩] at hpop
        exact hpop
    · rw [if_neg hq]
      rw [if_neg fun hboth => hq (Frame.waiting.inj hboth.2).1.symm] at hpop
      exact hpop

/-- A message that nobody has, for which nobody waits, was handed back. -/
theorem msgInv_spin
    (h : MsgInv P s) (c : Core) :
    MsgInv P (msgStep P s (.spin c)) := by
  rw [msgStep, spinStep]
  split
  · rename_i p toFree frames hstack
    have hwaiter : (s.ledger p).waiter = some (c, toFree) := by
      by_contra hnone
      have hcount := h.waiting c p toFree
      rw [if_neg hnone, hstack, List.count_eq_zero] at hcount
      exact hcount List.mem_cons_self
    have hunique : ∀ c' toFree', (s.ledger p).waiter = some (c', toFree') →
        c' = c ∧ Frame.waiting p toFree = .waiting p toFree' := by
      intro c' toFree' hsome
      rw [hwaiter, Option.some.injEq, Prod.mk.injEq] at hsome
      exact ⟨hsome.1.symm, by rw [hsome.2]⟩
    obtain ⟨hmarked, hdone⟩ := (h.ptr p).waited c toFree hwaiter
    split
    · rename_i hnone
      exfalso
      by_cases hplace : (s.ledger p).place = .own
      · obtain ⟨-, -, msg, hmem, -⟩ := hdone hplace
        rw [hnone] at hmem
        cases hmem
      · obtain ⟨msg, hmem, -⟩ := (h.ptr p).busy hplace
        rw [hnone] at hmem
        cases hmem
    · rename_i msg hmem
      split
      · rename_i hdequeued
        have hplace : (s.ledger p).place = .own := by
          by_contra hbusy
          obtain ⟨msg', hmem', hqueued, -⟩ := (h.ptr p).busy hbusy
          rw [hmem, Option.some.injEq] at hmem'
          rw [← hmem', hdequeued] at hqueued
          cases hqueued
        obtain ⟨hfinished, hfreed, -⟩ := hdone hplace
        have hcounts := (h.ptr p).counts
        rw [hplace] at hcounts
        split
        · rename_i hfree
          refine msgInv_release h hstack rfl hwaiter rfl ?_
          constructor
          · dsimp only
            rw [hplace]
            exact hcounts
          · exact fun hbusy => absurd hplace hbusy
          · exact fun _ _ hsome => nomatch hsome
          · intro _ _
            refine .inr ⟨congrArg (· + 1) hfreed, hmarked.trans hfree, hfinished, rfl⟩
        · rename_i hkeep
          refine msgInv_release h hstack rfl hwaiter rfl ?_
          exact ptrOk_owned ⟨hplace, rfl, hfreed⟩
            (hmarked.trans (Bool.eq_false_iff.2 hkeep)) hcounts
      · exact h
  · exact h

/-- A message at the head of a ring is there. -/
theorem MsgInv.head
    {r : RingId} {rest : List Ptr}
    (h : MsgInv P s)
    (hring : s.sys.ring r = p :: rest) :
    (s.ledger p).place = .queued r := by
  by_contra hnone
  have hcount := h.rings r p
  rw [if_neg hnone, hring, List.count_eq_zero] at hcount
  exact hcount List.mem_cons_self

theorem no_fault
    {msg : Msg}
    (hstate : msg.state = .queued) :
    { s with fault := s.fault || decide (msg.state ≠ .queued) } = s := by
  rw [hstate]
  simp

/-- A core takes a message out of its ring. -/
theorem msgInv_take
    {c : Core} {r : RingId} {rest : List Ptr} {msg : Msg} {l : Ledger}
    (h : MsgInv P s)
    (hring : s.sys.ring r = p :: rest)
    (hmem : s.sys.mem p = some msg)
    (hplace : l.place = .handled c msg.toFree)
    (hwaiter : l.waiter = (s.ledger p).waiter)
    (hptr : PtrOk P (some msg) l) :
    MsgInv P (s.record
      { s.sys with
        ring := Function.update s.sys.ring r rest
        stack := Function.update s.sys.stack c
          (.handling p msg.toFree :: s.sys.stack c) } p l) := by
  have hhead := h.head hring
  refine h.record (fun q hq => rfl) (hmem.symm ▸ hptr) (fun r' q => ?_)
    (fun c' q toFree => ?_) fun c' q toFree => ?_
  · have hpop := count_dequeue hring r' q
    have hold := h.rings r' q
    by_cases hq : q = p
    · subst hq
      rw [if_pos rfl, hplace]
      rw [hhead] at hold
      rw [hold] at hpop
      by_cases hr : r = r'
      · rw [if_pos ⟨hr.symm, rfl⟩, if_pos (congrArg Place.queued hr)] at hpop
        exact Nat.succ.inj hpop
      · rw [if_neg fun hboth => hr hboth.1.symm, if_neg fun heq => hr (Place.queued.inj heq)]
          at hpop
        exact hpop
    · rw [if_neg hq]
      rw [if_neg fun hboth => hq hboth.2.symm] at hpop
      exact hpop
  · have hold := h.handling c' q toFree
    rw [count_push]
    by_cases hq : q = p
    · subst hq
      rw [hold, hhead, if_pos rfl, hplace]
      simp [eq_comm]
    · rw [if_neg hq, if_neg fun hboth => hq (Frame.handling.inj hboth.2).1.symm]
      rfl
  · have hold := h.waiting c' q toFree
    rw [count_push, if_neg fun hboth => nomatch hboth.2]
    split
    · rename_i hq
      rw [hwaiter]
      exact hq ▸ hold
    · rfl

theorem msgInv_poll
    (h : MsgInv P s) (c : Core) (isLocal : Bool)
    (hmeets : MsgMeets P s (.poll c isLocal)) :
    MsgInv P (msgStep P s (.poll c isLocal)) := by
  rw [msgStep, pollStep]
  split
  · rename_i p rest hidle hring
    have hplace := h.head hring
    have hbusy : (s.ledger p).place ≠ .own := by
      rw [hplace]
      exact fun hown => nomatch hown
    obtain ⟨msg, hmem, hstate, hreach, hfinished, hfreed, hmarked, hwait, -⟩ :=
      (h.ptr p).busy hbusy
    rw [hmem]
    have hcheck : msgProcessCheck P msg.msgId = none := by
      rw [MsgMeets, hidle, hring] at hmeets
      simpa [hmem] using hmeets
    have hcounts := (h.ptr p).counts
    rw [hplace] at hcounts
    have htake := msgInv_take (c := c)
      (l := { s.ledger p with
        handed := (s.ledger p).handed + 1
        place := .handled c msg.toFree }) h hring hmem rfl rfl
      ⟨hcounts, fun _ => ⟨msg, rfl, hstate, hreach, hfinished, hfreed, hmarked, hwait,
        fun _ _ heq => (Place.handled.inj heq).2⟩,
        fun c' toFree hsome => ⟨((h.ptr p).waited c' toFree hsome).1, fun hown => nomatch hown⟩,
        fun hown => nomatch hown⟩
    dsimp only
    rw [hcheck]
    dsimp only
    rw [no_fault hstate]
    rw [hidle] at htake
    exact htake
  · exact h

/-- A core is done with a message that it handled. -/
theorem msgInv_leave
    {c : Core} {toFree : Bool} {frames : List Frame} {m : Option Msg}
    {ring : RingId → List Ptr} {l : Ledger}
    (h : MsgInv P s)
    (hstack : s.sys.stack c = .handling p toFree :: frames)
    (hplace : (s.ledger p).place = .handled c toFree)
    (hleft : ∀ c' toFree', l.place ≠ .handled c' toFree')
    (hwaiter : l.waiter = (s.ledger p).waiter)
    (hring : ∀ r q, (ring r).count q =
      if q = p then if l.place = .queued r then 1 else 0 else (s.sys.ring r).count q)
    (hptr : PtrOk P m l) :
    MsgInv P (s.record
      { mem := Function.update s.sys.mem p m
        ring := ring
        stack := Function.update s.sys.stack c frames } p l) := by
  have hmem : PtrOk P (Function.update s.sys.mem p m p) l := by
    rw [Function.update_self]
    exact hptr
  refine h.record (fun q hq => Function.update_of_ne hq _ _) hmem hring
    (fun c' q toFree' => ?_) fun c' q toFree' => ?_
  · have hpop := count_pop hstack c' (.handling q toFree')
    have hold := h.handling c' q toFree'
    by_cases hq : q = p
    · subst hq
      rw [if_pos rfl, if_neg (hleft c' toFree')]
      rw [hold, hplace] at hpop
      by_cases hboth : c' = c ∧ Frame.handling q toFree = .handling q toFree'
      · obtain ⟨rfl, hframe⟩ := hboth
        rw [if_pos ⟨rfl, hframe⟩, if_pos (by rw [(Frame.handling.inj hframe).2])] at hpop
        exact Nat.succ.inj hpop
      · rw [if_neg hboth, if_neg] at hpop
        · exact hpop
        · intro heq
          obtain ⟨rfl, rfl⟩ := Place.handled.inj heq
          exact hboth ⟨rfl, rfl⟩
    · rw [if_neg hq]
      rw [if_neg fun hboth => hq (Frame.handling.inj hboth.2).1.symm] at hpop
      exact hpop
  · have hpop := count_pop hstack c' (.waiting q toFree')
    rw [if_neg fun hboth => nomatch hboth.2] at hpop
    split
    · rename_i hq
      rw [hwaiter]
      exact hpop.trans (hq ▸ h.waiting c' q toFree')
    · exact hpop

/-- A message that was handled and is handed back, or freed. -/
theorem ptrOk_done
    {c : Core} {toFree : Bool} {msg : Msg} {l : Ledger}
    (h : PtrOk P (some msg) l)
    (hplace : l.place = .handled c toFree) :
    PtrOk P (if toFree then none else some { msg with state := .dequeued })
      { l with
        finished := true
        place := .own
        freed := l.freed + if toFree then 1 else 0 } := by
  have hbusy : l.place ≠ .own := by
    rw [hplace]
    exact fun hown => nomatch hown
  obtain ⟨msg', hmem, -, -, -, hfreed, hmarked, hwait, hsame⟩ := h.busy hbusy
  obtain rfl := Option.some.inj hmem
  have hflag : msg.toFree = toFree := hsame c toFree hplace
  have hcounts := h.counts
  rw [hplace] at hcounts
  constructor
  · exact hcounts
  · exact fun hown => absurd rfl hown
  · intro c' toFree' hsome
    have hsome' : l.waiter = some (c', toFree') := hsome
    have hkeep : toFree = false := by
      rw [← hflag]
      exact hwait (by rw [hsome']; exact Option.some_ne_none _)
    subst hkeep
    exact ⟨(h.waited c' toFree' hsome').1, fun _ => ⟨rfl, hfreed, _, rfl, rfl⟩⟩
  · intro _ hnone
    have hmark := hmarked hnone
    cases toFree with
    | false => exact .inl ⟨hfreed, hmark.trans hflag⟩
    | true => exact .inr ⟨congrArg (· + 1) hfreed, hmark.trans hflag, rfl, rfl⟩

/-- What happens behind a handler. -/
theorem msgProcessResult_cases
    {msg : Msg} {toFree : Bool}
    (P : Platform) (s : Sys) (c : Core) (p : Ptr) (error : Int)
    (hflag : msg.toFree = toFree) :
    (∃ e, msgProcessResult P s c p msg toFree error =
        (.error e, s.store p (if toFree then none else some { msg with state := .dequeued }))) ∨
      (error = -eagain ∧ msgProcessResult P s c p msg toFree error =
        (.sent, sentSys s c p { msg with toFree := false }
          { core := msg.destLcore, isLocal := true } { noblock := false, nowait := true })) ∨
      (msgProcessResult P s c p msg toFree error).1 = .spinning := by
  have hstore : ∀ (m m' : Option Msg), (s.store p m).store p m' = s.store p m' :=
    fun m m' => by simp [Sys.store]
  unfold msgProcessResult
  split
  · rename_i hagain
    dsimp only
    obtain ⟨-, hsent⟩ | ⟨e, sys, herror, hsys⟩ | hspin :=
      msgSendLocal_cases P (s.store p (some { msg with toFree := false })) c p
        { msg with toFree := false } { noblock := false, nowait := true }
    · refine .inr (.inl ⟨hagain, ?_⟩)
      rw [hsent]
      simp [sentSys, Sys.store]
    · refine .inl ⟨e, ?_⟩
      rw [herror]
      have hmsg : toFree = false → { msg with toFree := false } = msg := by
        rintro rfl
        rw [← hflag]
      have hsys' : ∀ m, sys.store p m = s.store p m := by
        intro m
        obtain rfl | rfl := hsys
        · exact hstore _ _
        · rw [hstore, hstore]
      cases toFree with
      | false =>
          rw [hmsg rfl]
          exact congrArg _ (hsys' _)
      | true =>
          exact congrArg _ (hsys' _)
    · refine .inr (.inr ?_)
      split
      · rename_i herror
        rw [herror] at hspin
        cases hspin
      · exact hspin
  · cases toFree <;> exact .inl ⟨_, rfl⟩

theorem msgInv_result
    (h : MsgInv P s) (c : Core) (error : Int)
    (hmeets : MsgMeets P s (.result c error)) :
    MsgInv P (msgStep P s (.result c error)) := by
  rw [msgStep, resultStep]
  split
  · rename_i p toFree frames hstack
    have hplace : (s.ledger p).place = .handled c toFree := by
      by_contra hnone
      have hcount := h.handling c p toFree
      rw [if_neg hnone, hstack, List.count_eq_zero] at hcount
      exact hcount List.mem_cons_self
    have hbusy : (s.ledger p).place ≠ .own := by
      rw [hplace]
      exact fun hown => nomatch hown
    have hptr := h.ptr p
    obtain ⟨msg, hmem, hstate, hreach, hfinished, hfreed, hmarked, hwait, hflag⟩ :=
      hptr.busy hbusy
    have hflag := hflag c toFree hplace
    rw [hmem] at hptr ⊢
    have hold : ∀ r q, (s.sys.ring r).count q =
        if q = p then if Place.own = .queued r then 1 else 0
        else (s.sys.ring r).count q := by
      intro r q
      split
      · rename_i hq
        rw [hq, h.rings r p, hplace]
        rfl
      · rfl
    have hdone := msgInv_leave
      (l := { s.ledger p with
        finished := true
        place := .own
        freed := (s.ledger p).freed + if toFree then 1 else 0 })
      h hstack hplace (fun _ _ heq => Place.noConfusion heq) rfl hold (ptrOk_done hptr hplace)
    dsimp only
    rw [no_fault hstate]
    obtain ⟨e, hend⟩ | ⟨hagain, hsent⟩ | hspin :=
      msgProcessResult_cases P s.sys c p error hflag
    · rw [hend]
      exact hdone
    · have hkeep : toFree = false := by
        rw [MsgMeets, hstack] at hmeets
        exact hmeets hagain
      have hsame : sentMsg { msg with toFree := false } { noblock := false, nowait := true } =
          msg := by
        rw [sentMsg, ← hstate, ← hkeep, ← hflag, Bool.and_true]
      have hcounts := hptr.counts
      rw [hplace] at hcounts
      rw [hsent, sentSys, hsame]
      refine msgInv_leave h hstack hplace (fun _ _ heq => nomatch heq) rfl (fun r q => ?_) ?_
      · rw [count_enqueue]
        by_cases hq : q = p
        · subst hq
          rw [if_pos rfl, h.rings r q, hplace]
          simp [eq_comm]
        · rw [if_neg hq, if_neg fun hboth => hq hboth.2.symm]
          rfl
      · constructor
        · exact congrArg (· + 1) hcounts
        · exact fun _ => ⟨msg, rfl, hstate, hreach, hfinished, hfreed, hmarked, hwait,
            fun _ _ heq => nomatch heq⟩
        · exact fun c' toFree' hsome =>
            ⟨(hptr.waited c' toFree' hsome).1, fun hown => nomatch hown⟩
        · exact fun hown => nomatch hown
    · split
      · rename_i hsent
        rw [hsent] at hspin
        cases hspin
      · rename_i herror
        rw [herror] at hspin
        cases hspin
      · exact h
  · exact h

theorem msgInv_step
    (s : MsgRun) (i : MsgEvent)
    (h : MsgInv P s)
    (hmeets : MsgMeets P s i) :
    MsgInv P (msgStep P s i) := by
  cases i with
  | init p msg => exact msgInv_init h p msg
  | free p => exact msgInv_free h p
  | send c p flags => exact msgInv_send h c p flags
  | spin c => exact msgInv_spin h c
  | poll c isLocal => exact msgInv_poll h c isLocal hmeets
  | result c error => exact msgInv_result h c error hmeets

theorem msgInv_msgInit : MsgInv P msgInit := by
  constructor
  · exact fun p => ptrOk_owned ⟨rfl, rfl, rfl⟩ rfl rfl
  · exact fun r p => rfl
  · exact fun c p toFree => rfl
  · exact fun c p toFree => rfl
  · rfl

end Steps

section Results

variable {P : Platform} {s : MsgRun}

theorem MsgInv.released
    {c : Core} {p : Ptr} {toFree : Bool} {frames : List Frame}
    (h : MsgInv P s)
    (hstack : s.sys.stack c = .waiting p toFree :: frames) :
    (msgStep P s (.spin c)).sys.stack c = frames ↔ (s.ledger p).finished = true := by
  have hwaiter : (s.ledger p).waiter = some (c, toFree) := by
    by_contra hnone
    have hcount := h.waiting c p toFree
    rw [if_neg hnone, hstack, List.count_eq_zero] at hcount
    exact hcount List.mem_cons_self
  by_cases hplace : (s.ledger p).place = .own
  · obtain ⟨-, hdone⟩ := (h.ptr p).waited c toFree hwaiter
    obtain ⟨hfinished, -, msg, hmem, hdequeued⟩ := hdone hplace
    refine iff_of_true ?_ hfinished
    simp only [msgStep, spinStep, hstack, hmem, hdequeued, if_true]
    split
    · exact Function.update_self _ _ _
    · exact Function.update_self _ _ _
  · obtain ⟨msg, hmem, hqueued, -, hfinished, -⟩ := (h.ptr p).busy hplace
    refine iff_of_false ?_ (by rw [hfinished]; exact Bool.false_ne_true)
    have hstate : ¬ msg.state = .dequeued := by
      rw [hqueued]
      exact fun heq => nomatch heq
    simp only [msgStep, spinStep, hstack, hmem, if_neg hstate]
    exact List.cons_ne_self _ _

theorem MsgInv.msgsOk
    (h : MsgInv P s) :
    MsgsOk P s := by
  have hring : ∀ p r, p ∈ s.sys.ring r ↔ (s.ledger p).place = .queued r := by
    intro p r
    rw [← List.count_pos_iff, h.rings r p]
    split <;> simp_all
  have hcounts := fun p => (h.ptr p).counts
  constructor
  · intro r
    rw [List.nodup_iff_count_le_one]
    intro p
    rw [h.rings r p]
    split <;> omega
  · intro p r r' hr hr'
    rw [hring] at hr hr'
    exact Place.queued.inj (hr.symm.trans hr')
  · intro p r hr
    rw [hcounts p, (hring p r).1 hr]
  · intro p hnone
    have hcount := hcounts p
    split at hcount
    · rename_i r hplace
      exact absurd ((hring p r).2 hplace) (hnone r)
    · exact hcount
  · exact fun c p toFree frames hstack => h.released hstack
  · intro p hmarked hfinished hnone
    have hplace : (s.ledger p).place = .own := by
      by_contra hbusy
      obtain ⟨msg, -, -, -, hnot, -⟩ := (h.ptr p).busy hbusy
      rw [hfinished] at hnot
      cases hnot
    have hwaiter : (s.ledger p).waiter = none := by
      cases hsome : (s.ledger p).waiter with
      | none => rfl
      | some w =>
          refine absurd ?_ (hnone w.1 w.2)
          rw [← List.count_pos_iff, h.waiting, hsome, if_pos rfl]
          exact Nat.one_pos
    obtain ⟨-, hunmarked⟩ | ⟨hfreed, -, -, hmem⟩ := (h.ptr p).idle hplace hwaiter
    · rw [hmarked] at hunmarked
      cases hunmarked
    · exact ⟨hfreed, hmem⟩
  · intro p
    by_cases hplace : (s.ledger p).place = .own
    · cases hsome : (s.ledger p).waiter with
      | none =>
          obtain ⟨hfreed, -⟩ | ⟨hfreed, hmarked, hfinished, -⟩ := (h.ptr p).idle hplace hsome
          · exact .inl hfreed
          · exact .inr ⟨hfreed, hmarked, hfinished⟩
      | some w =>
          exact .inl (((h.ptr p).waited w.1 w.2 hsome).2 hplace).2.1
    · obtain ⟨msg, -, -, -, -, hfreed, -⟩ := (h.ptr p).busy hplace
      exact .inl hfreed
  · exact h.safe

/--
In every run whose messages all have a handler, and whose marked messages are not posted again,
each posting is handed over once, waiting senders are released in time, and marked messages are
freed once.
-/
theorem msgs_ok
    (P : Platform) (is : List MsgEvent)
    (hrun : Guarded (msgStep P) (MsgMeets P) msgInit is) :
    MsgsOk P (run (msgStep P) msgInit is) :=
  (run_invariant (MsgInv P) msgInv_step msgInv_msgInit hrun).msgsOk

/-- Four cores with queues, and all handlers. -/
def fourCores : Platform :=
  { rteMaxLcore := 128
    lcoreIndex := fun c => if c.toNat < 4 then some c.toNat else none
    hasQueue := fun c => c ≠ 0
    capacity := 1023
    msgHandlerMap := fun _ _ => true }

/-- Core 1 waits for a marked message to core 2, which is posted again once. -/
theorem msgs_ok_waits :
    MsgsOk fourCores (run (msgStep fourCores) msgInit
      [.init 1 ⟨0x0301, true, false, 2, .init⟩, .send 1 1 ⟨false, false⟩, .spin 1,
        .poll 2 false, .result 2 (-eagain), .spin 1, .poll 2 true, .result 2 0, .spin 1]) :=
  msgs_ok fourCores _ (by decide +kernel)

/-- A marked message that is posted again is not freed any more. -/
theorem repostedMark_lost :
    ¬ ∀ (P : Platform) (is : List MsgEvent), MsgsOk P (run (msgStep P) msgInit is) := by
  intro hclaim
  have hfreed := (hclaim fourCores
    [.init 1 ⟨0x0406, true, false, 2, .init⟩, .send 1 1 ⟨false, true⟩, .poll 2 false,
      .result 2 (-eagain), .poll 2 true, .result 2 0]).freedOnce 1
  have hnobody : ∀ c toFree, Frame.waiting 1 toFree ∉ (run (msgStep fourCores) msgInit
      [.init 1 ⟨0x0406, true, false, 2, .init⟩, .send 1 1 ⟨false, true⟩, .poll 2 false,
        .result 2 (-eagain), .poll 2 true, .result 2 0]).sys.stack c := by
    decide +kernel
  have hzero := (hfreed (by decide +kernel) (by decide +kernel) hnobody).1
  revert hzero
  decide +kernel

end Results

end CoreMessages
end Warp17
