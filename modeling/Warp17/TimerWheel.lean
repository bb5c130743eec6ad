import Warp17.IntrusiveLists

/-!
# The timer wheels of a core

`tpg_timer.c`.  A core has three wheels: the slow timers and the retransmission timers of the
TCP control blocks and the test timers of all control blocks.  A wheel is an array of bucket
lists whose links lie in the control blocks, and a pointer `tw_current` into it.  Setting a
timer computes its bucket from the time it expires at; advancing the wheel walks the buckets
up to the one of the current time and runs the handler of every entry it finds there.

Beside what the code stores, the state keeps what only the proofs read: the number of buckets
a wheel's pointer has passed (`position`), the handlers its last advance could still have run
(`runsLeft`), the history of its timers (`trace`, newest event first) and the time that a
running `time_advance` has read (`advanceUs`).  The counters of `tpg_timer_statistics_t` and
the log lines are left out.
-/

namespace Warp17
namespace TimerWheel

open IntrusiveLists

universe u

/-- The wheels of a core, in the order `time_advance` goes through them. -/
inductive TimerKind
  | slow
  | rto
  | test
deriving DecidableEq, Repr

/-- `GCFG_TMR_MAX_RUN_CNT` -/
def tmrMaxRunCnt : Nat := 10000

/-- `GCFG_TMR_STEP_ADVANCE`, in microseconds -/
def tmrStepAdvance : Nat := 25

/-- What a timer is set with, and the wheel's pointer at that moment; times in microseconds. -/
structure Arming where
  nowUs : Nat
  timeoutUs : Nat
  current : Nat
  /-- the time that the running `time_advance` has read; between two of them, `nowUs` -/
  refUs : Nat
deriving DecidableEq, Repr

/-- What happens to the timer of a control block. -/
inductive TimerEvent (α : Type u)
  | armed (cb : α) (arming : Arming)
  | fired (cb : α) (nowUs : Nat)
  | cancelled (cb : α) (nowUs : Nat)
deriving DecidableEq, Repr

/-- `tmr_wheel_t`, with the links of its timers and the on-list flags of the control blocks. -/
structure TmrWheel (α : Type u) where
  twSize : Nat
  twStep : Nat
  twCurrent : Nat
  /-- in cycles -/
  twLastAdvance : Nat
  /-- `tw_wheel` and the `tmr_list_entry` fields -/
  links : Links Nat α
  /-- `tcb_on_slow_list`, `tcb_on_rto_list`, `l4cb_on_test_tmr_list` -/
  onList : α → Bool
  position : Nat
  runsLeft : Nat
  trace : List (TimerEvent α)

/-- The wheels of a core and its clock. -/
structure Timers (α : Type u) where
  /-- `rte_get_timer_cycles()` -/
  cycles : Nat
  cyclesPerUs : Nat
  advanceUs : Option Nat
  wheels : TimerKind → TmrWheel α

/-- What an expiry handler, or the code between two advances, does about the timers of a block. -/
inductive TimerCall
  | wait (cycles : Nat)
  | set (kind : TimerKind) (timeoutUs : Nat)
  | cancel (kind : TimerKind)
deriving DecidableEq, Repr

/-- The status that the set and cancel functions return. -/
inductive Status
  | ok
  | einval
deriving DecidableEq, Repr

variable {α : Type u} [DecidableEq α]

namespace TmrWheel

def wheelBucket (w : TmrWheel α) (nowUs timeoutUs : Nat) : Option Nat :=
  if timeoutUs > w.twSize * w.twStep then none
  else
    let bucket := ((nowUs + timeoutUs) / w.twStep) % w.twSize
    -- the result is an `int`: from 2^31 on it is negative, which the caller takes for an error
    if bucket < 2 ^ 31 then some bucket else none

def arm (w : TmrWheel α) (cb : α) (nowUs refUs timeoutUs : Nat) : TmrWheel α × Status :=
  if w.onList cb then (w, .einval)
  else
    match w.wheelBucket nowUs timeoutUs with
    | none => (w, .einval)
    | some bucket =>
        ({ w with
            links := w.links.insertHead bucket cb
            onList := Function.update w.onList cb true
            trace := .armed cb ⟨nowUs, timeoutUs, w.twCurrent, refUs⟩ :: w.trace }, .ok)

def cancel (w : TmrWheel α) (cb : α) (nowUs : Nat) : TmrWheel α × Status :=
  if w.onList cb then
    ({ w with
        links := w.links.remove cb
        onList := Function.update w.onList cb false
        trace := .cancelled cb nowUs :: w.trace }, .ok)
  else (w, .einval)

/-- The handlers first unlink the timer they are called for. -/
def expire (w : TmrWheel α) (cb : α) (nowUs : Nat) : TmrWheel α :=
  { w with
    links := w.links.remove cb
    onList := Function.update w.onList cb false
    trace := .fired cb nowUs :: w.trace }

def passBucket (w : TmrWheel α) : TmrWheel α :=
  { w with twCurrent := (w.twCurrent + 1) % w.twSize, position := w.position + 1 }

def timerInitWheel (size step cycles cyclesPerUs : Nat) (next : α → Option α)
    (prev : α → Place Nat α) : TmrWheel α where
  twSize := size
  twStep := step
  twCurrent := ((cycles / cyclesPerUs) / step) % size
  twLastAdvance := 0
  -- only the heads are initialized; the fields of the control blocks hold anything
  links := ⟨fun _ => none, next, prev⟩
  onList := fun _ => false
  position := (cycles / cyclesPerUs) / step
  runsLeft := tmrMaxRunCnt
  trace := []

end TmrWheel

namespace Timers

def usec (t : Timers α) : Nat :=
  t.cycles / t.cyclesPerUs

/-- The time that bounds what the pointers have been moved to. -/
def refUs (t : Timers α) : Nat :=
  t.advanceUs.getD t.usec

def onWheel (t : Timers α) (kind : TimerKind) (f : TmrWheel α → TmrWheel α) : Timers α :=
  { t with wheels := Function.update t.wheels kind (f (t.wheels kind)) }

/-- `tcp_timer_slow_set`, `tcp_timer_rto_set` and `l4cb_timer_test_set` on their wheels. -/
def timerSet (t : Timers α) (kind : TimerKind) (cb : α) (timeoutUs : Nat) : Timers α × Status :=
  (t.onWheel kind fun w => (w.arm cb t.usec t.refUs timeoutUs).1,
    ((t.wheels kind).arm cb t.usec t.refUs timeoutUs).2)

/-- `tcp_timer_slow_cancel`, `tcp_timer_rto_cancel` and `l4cb_timer_test_cancel`. -/
def timerCancel (t : Timers α) (kind : TimerKind) (cb : α) : Timers α × Status :=
  (t.onWheel kind fun w => (w.cancel cb t.usec).1, ((t.wheels kind).cancel cb t.usec).2)

/-- One timer call about a control block. -/
def call (cb : α) (t : Timers α) : TimerCall → Timers α
  | .wait cycles => { t with cycles := t.cycles + cycles }
  | .set kind timeoutUs => (t.timerSet kind cb timeoutUs).1
  | .cancel kind => (t.timerCancel kind cb).1

/-- `tcp_handle_slow_to`, `tcp_handle_retrans_to` and `l4cb_handle_test_to`: the timer is
unlinked, then the event is dispatched to the state machine of the block, which makes calls. -/
def handleTimeout (t : Timers α) (kind : TimerKind) (cb : α) (calls : List TimerCall) : Timers α :=
  calls.foldl (call cb) (t.onWheel kind fun w => w.expire cb t.usec)

end Timers

/-- The calls of the handler of each entry, given the wheel, the block and the runs left. -/
abbrev Handler (α : Type u) := TimerKind → α → Nat → List TimerCall

/-- The inner loop of `tpg_time_wheel_advance`; `left` is `GCFG_TMR_MAX_RUN_CNT - cnt`. -/
def walkBucket (handler : Handler α) (kind : TimerKind) :
    Nat → Option α → Timers α → Timers α × Nat
  | 0, _, t => (t, 0)
  | left + 1, none, t => (t, left + 1)
  | left + 1, some cb, t =>
      let tmp := (t.wheels kind).links.next cb
      walkBucket handler kind left tmp (t.handleTimeout kind cb (handler kind cb left))

/-- The outer loop; the pointer reaches `now_idx` after less than `tw_size` buckets. -/
def walkWheel (handler : Handler α) (kind : TimerKind) (nowIdx : Nat) :
    Nat → Nat → Timers α → Timers α × Nat
  | 0, left, t => (t, left)
  | fuel + 1, left, t =>
      let w := t.wheels kind
      if w.twCurrent = nowIdx then (t, left)
      else
        let walked := walkBucket handler kind left (w.links.first w.twCurrent) t
        if walked.2 = 0 then walked
        else
          walkWheel handler kind nowIdx fuel walked.2 (walked.1.onWheel kind TmrWheel.passBucket)

/-- `tpg_time_wheel_advance`, called with the time `now` in cycles. -/
def tpgTimeWheelAdvance (handler : Handler α) (t : Timers α) (kind : TimerKind) (now : Nat) :
    Timers α :=
  let nowUs := now / t.cyclesPerUs
  let w := t.wheels kind
  let walked := walkWheel handler kind ((nowUs / w.twStep) % w.twSize) w.twSize tmrMaxRunCnt t
  walked.1.onWheel kind fun w => { w with twLastAdvance := now, runsLeft := walked.2 }

def tcpTimeShouldAdvance (t : Timers α) (kind : TimerKind) (now : Nat) : Bool :=
  (now - (t.wheels kind).twLastAdvance) / t.cyclesPerUs > tmrStepAdvance

/-- What `time_advance` does about one wheel. -/
def advanceWheel (handler : Handler α) (now : Nat) (t : Timers α) (kind : TimerKind) : Timers α :=
  if tcpTimeShouldAdvance t kind now then tpgTimeWheelAdvance handler t kind now else t

def timeAdvance (handler : Handler α) (t : Timers α) : Timers α :=
  let now := t.cycles
  let advanced := [TimerKind.slow, .rto, .test].foldl (advanceWheel handler now)
    { t with advanceUs := some t.usec }
  { advanced with advanceUs := none }

/-- What the core does about its timers: calls for a block, or an advance of the wheels. -/
inductive TimerInput (α : Type u)
  | call (cb : α) (c : TimerCall)
  | advance (handler : Handler α)

def timerStep (t : Timers α) : TimerInput α → Timers α
  | .call cb c => t.call cb c
  | .advance handler => timeAdvance handler t

/-- What `timer_lcore_init` needs for a wheel. -/
structure WheelConfig where
  size : Nat
  step : Nat
  size_pos : 0 < size
  step_pos : 0 < step

/-- The wheels of `cfg_init`: 60 s in steps of 100 ms, 30 s in steps of 50 us and 30 min in
steps of 100 us. -/
def defaultWheels : TimerKind → WheelConfig
  | .slow => ⟨60000000 / 100000, 100000, by decide, by decide⟩
  | .rto => ⟨30000000 / 50, 50, by decide, by decide⟩
  | .test => ⟨1800000000 / 100, 100, by decide, by decide⟩

/-- `timer_lcore_init`, at some time and with any contents of the control blocks. -/
def timerLcoreInit (cfg : TimerKind → WheelConfig) (cycles cyclesPerUs : Nat)
    (next : TimerKind → α → Option α) (prev : TimerKind → α → Place Nat α) : Timers α where
  cycles := cycles
  cyclesPerUs := cyclesPerUs
  advanceUs := none
  wheels kind :=
    TmrWheel.timerInitWheel (cfg kind).size (cfg kind).step cycles cyclesPerUs (next kind)
      (prev kind)

end TimerWheel
end Warp17
