import Warp17.TimerWheel
import Warp17.GuardedRuns

/-!
# Timers fire once and in turn

Every timer of a wheel is on one bucket list while its flag is set, and each arming ends with
one expiry or one cancellation.  The pointer passes a bucket only after its walk, so it never
leaves behind a timer that is due at the position it passes; an advance that is not cut short
leaves no overdue timer at all, as long as the pointer lags less than a revolution.

A timer never fires early when its bucket lies in the revolution that starts at the pointer
(`Arming.InTurn`).  The set functions check another bound: they compare the timeout alone with
the length of the wheel, and a timeout close to it lands at or behind the pointer.

**Results**
- `timers_in_order`: list invariant, alternation and progress, in every run.
- `timers_never_early`: no early expiry, in every run whose armings are in turn.
-/

namespace Warp17
namespace TimerExpiry

open GuardedRuns IntrusiveLists TimerWheel

universe u

/-! ## The history of a timer -/

/-- The step in which the timer expires. -/
def due (step : Nat) (a : Arming) : Nat :=
  (a.nowUs + a.timeoutUs) / step

/-- Buckets between the pointer and the step `idx`, going forward. -/
def lag (size idx current : Nat) : Nat :=
  (idx % size + size - current) % size

/-- The timer is due before the pointer has gone round. -/
def InTurn (size step : Nat) (a : Arming) : Prop :=
  due step a + lag size (a.refUs / step) a.current < a.refUs / step + size

instance (size step : Nat) (a : Arming) : Decidable (InTurn size step a) :=
  inferInstanceAs (Decidable (_ < _))

variable {α : Type u} [DecidableEq α]

/-- The arming of a block's timer that has not been fired or cancelled yet. -/
def pending (cb : α) : List (TimerEvent α) → Option Arming
  | [] => none
  | .armed c a :: trace => if c = cb then some a else pending cb trace
  | .fired c _ :: trace => if c = cb then none else pending cb trace
  | .cancelled c _ :: trace => if c = cb then none else pending cb trace

/-- Each arming is followed by exactly one expiry or one cancellation. -/
def Alternates : List (TimerEvent α) → Prop
  | [] => True
  | .armed cb _ :: trace => pending cb trace = none ∧ Alternates trace
  | .fired cb _ :: trace => (pending cb trace).isSome = true ∧ Alternates trace
  | .cancelled cb _ :: trace => (pending cb trace).isSome = true ∧ Alternates trace

/-- Every expiry comes after the full timeout, to the resolution of one step. -/
def NeverEarly (step : Nat) : List (TimerEvent α) → Prop
  | [] => True
  | .fired cb nowUs :: trace =>
      (∀ a ∈ pending cb trace, a.nowUs + a.timeoutUs < nowUs + step) ∧ NeverEarly step trace
  | _ :: trace => NeverEarly step trace

/-- Every arming is in turn. -/
def AllInTurn (size step : Nat) : List (TimerEvent α) → Prop
  | [] => True
  | .armed _ a :: trace => InTurn size step a ∧ AllInTurn size step trace
  | _ :: trace => AllInTurn size step trace

/-! ## The pointer -/

section Pointer

variable {size idx idx' current n : Nat}

theorem add_lag_mod
    (hsize : 0 < size)
    (hcur : current < size) :
    (current + lag size idx current) % size = idx % size := by
  have hlt := Nat.mod_lt idx hsize
  rw [lag, Nat.add_mod_mod, show current + (idx % size + size - current) = idx % size + size by
    omega, Nat.add_mod_right, Nat.mod_mod]

theorem lag_lt
    (hsize : 0 < size) :
    lag size idx current < size :=
  Nat.mod_lt _ hsize

/-- Moving on by `d` steps makes the lag grow by `d`, modulo whole revolutions. -/
theorem lag_mono
    (hsize : 0 < size)
    (hcur : current < size)
    (hidx : idx ≤ idx')
    (h : n + lag size idx current < idx + size) :
    n + lag size idx' current < idx' + size := by
  have hle : lag size idx' current ≤ lag size idx current + (idx' - idx) := by
    have hmod : (current + lag size idx' current) % size =
        (current + (lag size idx current + (idx' - idx))) % size := by
      rw [add_lag_mod hsize hcur, ← Nat.add_assoc, Nat.add_mod, add_lag_mod hsize hcur,
        ← Nat.add_mod, Nat.add_sub_cancel' hidx]
    have heq : lag size idx' current % size = (lag size idx current + (idx' - idx)) % size :=
      Nat.ModEq.add_left_cancel' current hmod
    rw [Nat.mod_eq_of_lt (lag_lt hsize)] at heq
    rw [heq]
    exact Nat.mod_le _ _
  omega

/-- A pointer that is not at the step yet has a lag, which each bucket it passes reduces. -/
theorem lag_pass
    (hsize : 0 < size)
    (hcur : current < size)
    (hne : current ≠ idx % size) :
    lag size idx ((current + 1) % size) + 1 = lag size idx current := by
  have hlt := Nat.mod_lt idx hsize
  unfold lag
  by_cases hwrap : current + 1 = size
  · rw [hwrap, Nat.mod_self, Nat.sub_zero, Nat.add_mod_right, Nat.mod_mod,
      Nat.mod_eq_of_lt (a := idx % size + size - current) (by omega)]
    omega
  · rw [Nat.mod_eq_of_lt (show current + 1 < size by omega)]
    by_cases hle : current < idx % size
    · rw [show idx % size + size - (current + 1) = idx % size - (current + 1) + size by omega,
        show idx % size + size - current = idx % size - current + size by omega,
        Nat.add_mod_right, Nat.add_mod_right,
        Nat.mod_eq_of_lt (a := idx % size - (current + 1)) (by omega),
        Nat.mod_eq_of_lt (a := idx % size - current) (by omega)]
      omega
    · rw [Nat.mod_eq_of_lt (a := idx % size + size - (current + 1)) (by omega),
        Nat.mod_eq_of_lt (a := idx % size + size - current) (by omega)]
      omega

/-- A timer in the pointer's own bucket that is in turn is due before the step. -/
theorem due_before
    (hsize : 0 < size)
    (hcur : current < size)
    (hne : current ≠ idx % size)
    (hbucket : n % size = current)
    (h : n + lag size idx current < idx + size) :
    n < idx := by
  have hpos := lag_pass hsize hcur hne
  have hmod : (n + lag size idx current) % size = idx % size := by
    rw [← Nat.mod_add_mod, hbucket, add_lag_mod hsize hcur]
  have hle : n + lag size idx current ≤ idx := by
    by_contra hlt
    have hdvd := (Nat.modEq_iff_dvd' (by omega)).1 hmod.symm
    have := Nat.le_of_dvd (by omega) hdvd
    omega
  omega

end Pointer

/-! ## One wheel -/

/-- The invariant of a wheel: its links spell the bucket lists `lists`. -/
structure WheelInv (refUs : Nat) (w : TmrWheel α) (lists : Nat → List α) : Prop where
  size_pos : 0 < w.twSize
  step_pos : 0 < w.twStep
  current_eq : w.twCurrent = w.position % w.twSize
  position_le : w.position ≤ refUs / w.twStep
  represents : Represents w.links lists
  flag : ∀ cb, w.onList cb = true ↔ ∃ b, cb ∈ lists b
  armed : ∀ b, ∀ cb ∈ lists b, ∃ a, pending cb w.trace = some a ∧
    due w.twStep a % w.twSize = b ∧ w.position ≤ due w.twStep a ∧
    (AllInTurn w.twSize w.twStep w.trace →
      due w.twStep a + lag w.twSize (refUs / w.twStep) w.twCurrent <
        refUs / w.twStep + w.twSize)
  idle : ∀ cb, (∀ b, cb ∉ lists b) → pending cb w.trace = none
  alternates : Alternates w.trace
  onTime : AllInTurn w.twSize w.twStep w.trace → NeverEarly w.twStep w.trace

/-- In a walk of the pointer's bucket `rest` is still to be visited; what lies before it was
armed during the walk and is due in a later revolution. -/
def Walked (w : TmrWheel α) (lists : Nat → List α) (rest : List α) : Prop :=
  ∃ new, lists w.twCurrent = new ++ rest ∧
    ∀ cb ∈ new, ∀ a ∈ pending cb w.trace, w.position < due w.twStep a

/-- What arming, cancelling and expiring leave alone. -/
structure SameFace (w w' : TmrWheel α) : Prop where
  size : w'.twSize = w.twSize
  step : w'.twStep = w.twStep
  current : w'.twCurrent = w.twCurrent
  lastAdvance : w'.twLastAdvance = w.twLastAdvance
  position : w'.position = w.position
  runsLeft : w'.runsLeft = w.runsLeft

omit [DecidableEq α] in
theorem SameFace.trans
    {w w' w'' : TmrWheel α}
    (h : SameFace w w')
    (h' : SameFace w' w'') :
    SameFace w w'' :=
  ⟨h'.size.trans h.size, h'.step.trans h.step, h'.current.trans h.current,
    h'.lastAdvance.trans h.lastAdvance, h'.position.trans h.position,
    h'.runsLeft.trans h.runsLeft⟩

section Wheel

variable {refUs refUs' nowUs timeoutUs : Nat} {w : TmrWheel α} {lists : Nat → List α}
  {b : Nat} {cb : α} {rest : List α}

omit [DecidableEq α] in
theorem sameFace_refl (w : TmrWheel α) : SameFace w w :=
  ⟨rfl, rfl, rfl, rfl, rfl, rfl⟩

theorem sameFace_arm (w : TmrWheel α) (cb : α) (nowUs refUs timeoutUs : Nat) :
    SameFace w (w.arm cb nowUs refUs timeoutUs).1 := by
  unfold TmrWheel.arm
  split
  · exact sameFace_refl w
  · split <;> exact ⟨rfl, rfl, rfl, rfl, rfl, rfl⟩

theorem sameFace_cancel (w : TmrWheel α) (cb : α) (nowUs : Nat) :
    SameFace w (w.cancel cb nowUs).1 := by
  unfold TmrWheel.cancel
  split <;> exact ⟨rfl, rfl, rfl, rfl, rfl, rfl⟩

theorem WheelInv.current_lt
    (h : WheelInv refUs w lists) :
    w.twCurrent < w.twSize :=
  h.current_eq ▸ Nat.mod_lt _ h.size_pos

theorem WheelInv.position_lt
    (h : WheelInv refUs w lists)
    (hbehind : w.twCurrent ≠ refUs / w.twStep % w.twSize) :
    w.position < refUs / w.twStep := by
  refine lt_of_le_of_ne h.position_le fun heq => hbehind ?_
  rw [h.current_eq, heq]

/-- Time goes on. -/
theorem WheelInv.mono
    (h : WheelInv refUs w lists)
    (hle : refUs ≤ refUs') :
    WheelInv refUs' w lists := by
  have hidx := Nat.div_le_div_right (c := w.twStep) hle
  refine { h with position_le := h.position_le.trans hidx, armed := ?_ }
  intro b cb hcb
  obtain ⟨a, hpend, hbucket, hpos, hturn⟩ := h.armed b cb hcb
  exact ⟨a, hpend, hbucket, hpos, fun hall =>
    lag_mono h.size_pos h.current_lt hidx (hturn hall)⟩

/-- A timer is taken off its list, by a cancellation or because it expires. -/
theorem WheelInv.unlink
    {e : TimerEvent α}
    (h : WheelInv refUs w lists)
    (hcb : cb ∈ lists b)
    (he : e = .cancelled cb nowUs ∨ e = .fired cb nowUs)
    (htime : AllInTurn w.twSize w.twStep w.trace → NeverEarly w.twStep (e :: w.trace)) :
    WheelInv refUs
      { w with
        links := w.links.remove cb
        onList := Function.update w.onList cb false
        trace := e :: w.trace }
      (Function.update lists b ((lists b).erase cb)) := by
  have hpend : ∀ c, pending c (e :: w.trace) = if cb = c then none else pending c w.trace := by
    rcases he with rfl | rfl <;> exact fun c => rfl
  have hall : AllInTurn w.twSize w.twStep (e :: w.trace) ↔ AllInTurn w.twSize w.twStep w.trace := by
    rcases he with rfl | rfl <;> exact Iff.rfl
  have halt : Alternates (e :: w.trace) := by
    obtain ⟨a, ha, -⟩ := h.armed b cb hcb
    have hsome : (pending cb w.trace).isSome = true := by rw [ha]; rfl
    rcases he with rfl | rfl <;> exact ⟨hsome, h.alternates⟩
  refine ⟨h.size_pos, h.step_pos, h.current_eq, h.position_le,
    remove_represents h.represents hcb, ?_, ?_, ?_, halt, fun hturn => htime (hall.1 hturn)⟩
  · intro c
    simp only [h.represents.mem_remove hcb]
    by_cases hc : c = cb
    · subst hc
      simp
    · simp [hc, h.flag c]
  · intro c x hx
    obtain ⟨hne, hmem⟩ := (h.represents.mem_remove hcb).1 hx
    obtain ⟨a, ha, hbucket, hpos, hturn⟩ := h.armed c x hmem
    exact ⟨a, by rw [hpend, if_neg (Ne.symm hne), ha], hbucket, hpos,
      fun hin => hturn (hall.1 hin)⟩
  · intro c hc
    rw [hpend]
    split
    · rfl
    · rename_i hne
      exact h.idle c fun d hd => hc d ((h.represents.mem_remove hcb).2 ⟨Ne.symm hne, hd⟩)

/-- A timer that is on no list is put into the bucket of its due step. -/
theorem WheelInv.link
    (h : WheelInv refUs w lists)
    (href : refUs ≤ nowUs)
    (hflag : w.onList cb = false)
    (hb : due w.twStep ⟨nowUs, timeoutUs, w.twCurrent, refUs⟩ % w.twSize = b) :
    WheelInv refUs
      { w with
        links := w.links.insertHead b cb
        onList := Function.update w.onList cb true
        trace := .armed cb ⟨nowUs, timeoutUs, w.twCurrent, refUs⟩ :: w.trace }
      (Function.update lists b (cb :: lists b)) := by
  have hoff : ∀ c, cb ∉ lists c := by
    intro c hc
    have hon := (h.flag cb).2 ⟨c, hc⟩
    rw [hflag] at hon
    cases hon
  have hlate : w.position ≤ due w.twStep ⟨nowUs, timeoutUs, w.twCurrent, refUs⟩ :=
    h.position_le.trans (Nat.div_le_div_right (by show refUs ≤ nowUs + timeoutUs; omega))
  refine ⟨h.size_pos, h.step_pos, h.current_eq, h.position_le,
    insertHead_represents h.represents hoff, ?_, ?_, ?_, ⟨h.idle cb hoff, h.alternates⟩,
    fun hturn => h.onTime hturn.2⟩
  · intro c
    simp only [mem_insert]
    by_cases hc : c = cb
    · subst hc
      simp
    · simp [hc, h.flag c]
  · intro c x hx
    by_cases hxcb : x = cb
    · subst hxcb
      rcases mem_insert.1 hx with ⟨-, rfl⟩ | hmem
      · exact ⟨_, if_pos rfl, hb, hlate, fun hturn => hturn.1⟩
      · exact absurd hmem (hoff c)
    · have hmem : x ∈ lists c := by
        simpa [mem_insert, hxcb] using hx
      obtain ⟨a, ha, hbucket, hpos, hturn⟩ := h.armed c x hmem
      exact ⟨a, (if_neg (Ne.symm hxcb)).trans ha, hbucket, hpos, fun hin => hturn hin.2⟩
  · intro c hc
    have hne : cb ≠ c := by
      rintro rfl
      exact hc b (mem_insert.2 (.inl ⟨rfl, rfl⟩))
    exact (if_neg hne).trans (h.idle c fun d hd => hc d (mem_insert.2 (.inr hd)))

omit [DecidableEq α] in
theorem wheelBucket_some
    (h : w.wheelBucket nowUs timeoutUs = some b) :
    (nowUs + timeoutUs) / w.twStep % w.twSize = b := by
  simp only [TmrWheel.wheelBucket] at h
  split at h
  · cases h
  · split at h
    · exact Option.some.inj h
    · cases h

/-- Setting a timer keeps the invariant, and the walk when the block is not to be visited. -/
theorem WheelInv.arm
    (h : WheelInv refUs w lists)
    (href : refUs ≤ nowUs) :
    ∃ lists', WheelInv refUs (w.arm cb nowUs refUs timeoutUs).1 lists' ∧
      ∀ rest, w.position < refUs / w.twStep → Walked w lists rest →
        Walked (w.arm cb nowUs refUs timeoutUs).1 lists' rest := by
  unfold TmrWheel.arm
  split
  · exact ⟨lists, h, fun _ _ hw => hw⟩
  rename_i hflag
  cases hbucket : w.wheelBucket nowUs timeoutUs with
  | none =>
      exact ⟨lists, h, fun _ _ hw => hw⟩
  | some b =>
      have hlink := h.link href (by simpa using hflag) (wheelBucket_some hbucket)
      refine ⟨_, hlink, ?_⟩
      rintro rest hbehind ⟨new, hnew, hlate⟩
      have hnext : w.position < due w.twStep ⟨nowUs, timeoutUs, w.twCurrent, refUs⟩ :=
        hbehind.trans_le (Nat.div_le_div_right (by show refUs ≤ nowUs + timeoutUs; omega))
      have hlate' : ∀ c ∈ cb :: new, ∀ a ∈ pending c
          (.armed cb ⟨nowUs, timeoutUs, w.twCurrent, refUs⟩ :: w.trace),
          w.position < due w.twStep a := by
        intro c hc a ha
        by_cases hcb : cb = c
        · rw [pending, if_pos hcb] at ha
          exact Option.some.inj ha ▸ hnext
        · rw [pending, if_neg hcb] at ha
          exact hlate c (by simpa [Ne.symm hcb] using hc) a ha
      by_cases hcur : b = w.twCurrent
      · exact ⟨cb :: new, by simp [hcur, hnew], hlate'⟩
      · refine ⟨new, ?_, fun c hc => hlate' c (List.mem_cons_of_mem cb hc)⟩
        show Function.update lists b (cb :: lists b) w.twCurrent = new ++ rest
        rw [Function.update_of_ne (Ne.symm hcur), hnew]

/-- A block off the visited part is unlinked: the part to visit stays as it is. -/
theorem Walked.unlink
    {e : TimerEvent α} {w' : TmrWheel α}
    (hw : Walked w lists rest)
    (hrest : cb ∉ rest)
    (hw' : SameFace w w' ∧ w'.trace = e :: w.trace)
    (he : e = .cancelled cb nowUs ∨ e = .fired cb nowUs) :
    Walked w' (Function.update lists b ((lists b).erase cb)) rest := by
  obtain ⟨new, hnew, hlate⟩ := hw
  obtain ⟨hface, htrace⟩ := hw'
  have hpend : ∀ c, ∀ a ∈ pending c w'.trace, a ∈ pending c w.trace := by
    intro c a ha
    rw [htrace] at ha
    rcases he with rfl | rfl <;> rw [pending] at ha <;> split at ha
    · cases ha
    · exact ha
    · cases ha
    · exact ha
  have hlate' : ∀ c ∈ new, ∀ a ∈ pending c w'.trace, w'.position < due w'.twStep a := by
    intro c hc a ha
    rw [hface.position, hface.step]
    exact hlate c hc a (hpend c a ha)
  by_cases hcur : w.twCurrent = b
  · subst hcur
    refine ⟨new.erase cb, ?_, fun c hc => hlate' c (List.mem_of_mem_erase hc)⟩
    rw [hface.current, Function.update_self, hnew]
    by_cases hmem : cb ∈ new
    · exact List.erase_append_left _ hmem
    · rw [List.erase_append_right _ hmem, List.erase_of_not_mem hrest,
        List.erase_of_not_mem hmem]
  · refine ⟨new, ?_, hlate'⟩
    rw [hface.current, Function.update_of_ne hcur, hnew]

theorem WheelInv.cancel
    (h : WheelInv refUs w lists) :
    ∃ lists', WheelInv refUs (w.cancel cb nowUs).1 lists' ∧
      ∀ rest, cb ∉ rest → Walked w lists rest → Walked (w.cancel cb nowUs).1 lists' rest := by
  unfold TmrWheel.cancel
  split
  · rename_i hflag
    obtain ⟨b, hcb⟩ := (h.flag cb).1 hflag
    exact ⟨_, h.unlink hcb (.inl rfl) h.onTime, fun rest hrest hw =>
      hw.unlink hrest ⟨⟨rfl, rfl, rfl, rfl, rfl, rfl⟩, rfl⟩ (.inl rfl)⟩
  · exact ⟨lists, h, fun _ _ hw => hw⟩

/-- The next entry of a walk is unlinked by its handler, and not early. -/
theorem WheelInv.expire
    (h : WheelInv refUs w lists)
    (href : refUs ≤ nowUs)
    (hbehind : w.twCurrent ≠ refUs / w.twStep % w.twSize)
    (hw : Walked w lists (cb :: rest)) :
    w.links.next cb = rest.head? ∧ cb ∉ rest ∧
      ∃ lists', WheelInv refUs (w.expire cb nowUs) lists' ∧
        Walked (w.expire cb nowUs) lists' rest := by
  obtain ⟨new, hnew, hlate⟩ := hw
  have hcb : cb ∈ lists w.twCurrent := by
    simp [hnew]
  have hnodup := h.represents.nodup w.twCurrent
  rw [hnew, List.nodup_append] at hnodup
  obtain ⟨-, hrest, hapart⟩ := hnodup
  refine ⟨h.represents.next_eq hnew, (List.nodup_cons.1 hrest).1, _,
    h.unlink hcb (.inr rfl) ?_, ?_⟩
  · intro hturn
    refine ⟨?_, h.onTime hturn⟩
    intro a ha
    obtain ⟨a', ha', hbucket, -, hin⟩ := h.armed _ cb hcb
    obtain rfl : a' = a := Option.some.inj (ha'.symm.trans ha)
    have hdue := due_before h.size_pos h.current_lt hbehind hbucket (hin hturn)
    have hlt := (Nat.div_lt_iff_lt_mul h.step_pos).1
      (show (a'.nowUs + a'.timeoutUs) / w.twStep < refUs / w.twStep from hdue)
    have hle := Nat.div_mul_le_self refUs w.twStep
    omega
  · -- the entry itself goes, so this is `Walked.unlink` for the part behind it
    have hmem : cb ∉ new := fun hin => hapart cb hin cb (by simp) rfl
    refine ⟨new, ?_, ?_⟩
    · show Function.update lists w.twCurrent ((lists w.twCurrent).erase cb) w.twCurrent =
        new ++ rest
      rw [Function.update_self, hnew, List.erase_append_right _ hmem, List.erase_cons_head]
    · intro c hc a ha
      have hne : cb ≠ c := fun heq => hmem (heq ▸ hc)
      have ha' : a ∈ pending c w.trace := by
        simpa [TmrWheel.expire, pending, hne] using ha
      exact hlate c hc a ha'

/-- The pointer leaves a bucket whose walk is complete. -/
theorem WheelInv.passBucket
    (h : WheelInv refUs w lists)
    (hbehind : w.twCurrent ≠ refUs / w.twStep % w.twSize)
    (hw : Walked w lists []) :
    WheelInv refUs w.passBucket lists := by
  obtain ⟨new, hnew, hlate⟩ := hw
  rw [List.append_nil] at hnew
  have hlt := h.position_lt hbehind
  refine { h with current_eq := ?_, position_le := hlt, armed := ?_ }
  · show (w.twCurrent + 1) % w.twSize = (w.position + 1) % w.twSize
    rw [h.current_eq, Nat.mod_add_mod]
  · intro b cb hcb
    obtain ⟨a, ha, hbucket, hpos, hturn⟩ := h.armed b cb hcb
    have hpass := lag_pass h.size_pos h.current_lt hbehind
    refine ⟨a, ha, hbucket, ?_, fun hin => ?_⟩
    · by_cases hb : b = w.twCurrent
      · subst hb
        exact hlate cb (hnew ▸ hcb) a ha
      · refine Nat.lt_of_le_of_ne hpos fun heq => hb ?_
        rw [← hbucket, h.current_eq, heq]
        rfl
    · have hlt' := hturn hin
      show due w.twStep a + lag w.twSize (refUs / w.twStep) ((w.twCurrent + 1) % w.twSize) <
        refUs / w.twStep + w.twSize
      omega

end Wheel

/-! ## The wheels of a core -/

/-- The invariant of all wheels; `refUs` bounds what their pointers have been moved to. -/
structure TimersInv (refUs : Nat) (t : Timers α) : Prop where
  ref_le : refUs ≤ t.usec
  wheel : ∀ kind, ∃ lists, WheelInv refUs (t.wheels kind) lists

/-- In an advance that read the time `nowUs`, the walk of a bucket has `rest` to visit. -/
structure WalkInv (nowUs : Nat) (kind : TimerKind) (rest : List α) (t : Timers α) : Prop where
  reads : t.advanceUs = some nowUs
  timers : TimersInv nowUs t
  walked : ∃ lists, WheelInv nowUs (t.wheels kind) lists ∧ Walked (t.wheels kind) lists rest
  behind : (t.wheels kind).twCurrent ≠ nowUs / (t.wheels kind).twStep % (t.wheels kind).twSize

/-- The clock does not go back, and the faces of the wheels other than `kind` stay. -/
structure Later (apart : TimerKind → Prop) (t t' : Timers α) : Prop where
  cyclesPerUs : t'.cyclesPerUs = t.cyclesPerUs
  advanceUs : t'.advanceUs = t.advanceUs
  cycles : t.cycles ≤ t'.cycles
  face : ∀ k, ¬ apart k → SameFace (t.wheels k) (t'.wheels k)

/-- The clock does not go back, and the faces of all wheels stay. -/
abbrev Untouched (t t' : Timers α) : Prop :=
  Later (fun _ => False) t t'

section Core

variable {t t' t'' : Timers α} {kind : TimerKind} {apart : TimerKind → Prop} {cb : α}
  {rest : List α} {nowUs : Nat}

omit [DecidableEq α] in
theorem Later.refl (t : Timers α) : Later apart t t :=
  ⟨rfl, rfl, le_rfl, fun _ _ => sameFace_refl _⟩

omit [DecidableEq α] in
theorem Later.trans
    (h : Later apart t t')
    (h' : Later apart t' t'') :
    Later apart t t'' :=
  ⟨h'.cyclesPerUs.trans h.cyclesPerUs, h'.advanceUs.trans h.advanceUs, h.cycles.trans h'.cycles,
    fun k hk => (h.face k hk).trans (h'.face k hk)⟩

omit [DecidableEq α] in
theorem Later.mono
    {apart' : TimerKind → Prop}
    (h : Later apart t t')
    (himp : ∀ k, apart k → apart' k) :
    Later apart' t t' :=
  { h with face := fun _ hk => h.face _ fun hin => hk (himp _ hin) }

omit [DecidableEq α] in
theorem Later.usec_le
    (h : Later apart t t') :
    t.usec ≤ t'.usec := by
  rw [Timers.usec, Timers.usec, h.cyclesPerUs]
  exact Nat.div_le_div_right h.cycles

omit [DecidableEq α] in
@[simp] theorem onWheel_self
    (t : Timers α) (kind : TimerKind) (f : TmrWheel α → TmrWheel α) :
    (t.onWheel kind f).wheels kind = f (t.wheels kind) :=
  Function.update_self ..

omit [DecidableEq α] in
theorem onWheel_of_ne
    {k : TimerKind}
    (f : TmrWheel α → TmrWheel α)
    (hk : k ≠ kind) :
    (t.onWheel kind f).wheels k = t.wheels k :=
  Function.update_of_ne hk ..

omit [DecidableEq α] in
theorem later_onWheel
    {f : TmrWheel α → TmrWheel α}
    (hf : ¬ apart kind → SameFace (t.wheels kind) (f (t.wheels kind))) :
    Later apart t (t.onWheel kind f) := by
  refine ⟨rfl, rfl, le_rfl, fun k hk => ?_⟩
  by_cases hkind : k = kind
  · subst hkind
    rw [onWheel_self]
    exact hf hk
  · rw [onWheel_of_ne f hkind]
    exact sameFace_refl _

theorem call_set (t : Timers α) (cb : α) (k : TimerKind) (timeoutUs : Nat) :
    t.call cb (.set k timeoutUs) = t.onWheel k fun w => (w.arm cb t.usec t.refUs timeoutUs).1 :=
  rfl

theorem call_cancel (t : Timers α) (cb : α) (k : TimerKind) :
    t.call cb (.cancel k) = t.onWheel k fun w => (w.cancel cb t.usec).1 :=
  rfl

omit [DecidableEq α] in
@[simp] theorem onWheel_refUs
    (t : Timers α) (kind : TimerKind) (f : TmrWheel α → TmrWheel α) :
    (t.onWheel kind f).refUs = t.refUs :=
  rfl

theorem later_call (t : Timers α) (cb : α) (c : TimerCall) :
    Untouched t (t.call cb c) := by
  cases c with
  | wait cycles =>
      exact ⟨rfl, rfl, Nat.le_add_right _ _, fun k _ => sameFace_refl _⟩
  | set kind timeoutUs =>
      rw [call_set]
      exact later_onWheel fun _ => sameFace_arm _ cb _ _ _
  | cancel kind =>
      rw [call_cancel]
      exact later_onWheel fun _ => sameFace_cancel _ cb _

/-- One call keeps every wheel's invariant, and a walk that does not visit its block. -/
theorem call_wheel
    {lists : Nat → List α}
    (h : WheelInv t.refUs (t.wheels kind) lists)
    (href : t.refUs ≤ t.usec)
    (c : TimerCall) :
    ∃ lists', WheelInv (t.call cb c).refUs ((t.call cb c).wheels kind) lists' ∧
      ∀ rest, cb ∉ rest → (t.wheels kind).position < t.refUs / (t.wheels kind).twStep →
        Walked (t.wheels kind) lists rest → Walked ((t.call cb c).wheels kind) lists' rest := by
  cases c with
  | wait cycles =>
      have hle : t.refUs ≤ (t.call cb (.wait cycles)).refUs := by
        show t.advanceUs.getD t.usec ≤ t.advanceUs.getD (t.call cb (.wait cycles)).usec
        cases t.advanceUs with
        | none =>
            exact (later_call t cb (.wait cycles)).usec_le
        | some nowUs =>
            exact le_rfl
      exact ⟨lists, h.mono hle, fun rest _ _ hw => hw⟩
  | set k timeoutUs =>
      rw [call_set, onWheel_refUs]
      by_cases hk : kind = k
      · subst hk
        obtain ⟨lists', hinv, hwalk⟩ := @WheelInv.arm α _ _ _ timeoutUs _ _ cb h href
        rw [onWheel_self]
        exact ⟨lists', hinv, fun rest _ hbehind hw => hwalk rest hbehind hw⟩
      · rw [onWheel_of_ne _ hk]
        exact ⟨lists, h, fun rest _ _ hw => hw⟩
  | cancel k =>
      rw [call_cancel, onWheel_refUs]
      by_cases hk : kind = k
      · subst hk
        obtain ⟨lists', hinv, hwalk⟩ := @WheelInv.cancel α _ _ t.usec _ _ cb h
        rw [onWheel_self]
        exact ⟨lists', hinv, fun rest hcb _ hw => hwalk rest hcb hw⟩
      · rw [onWheel_of_ne _ hk]
        exact ⟨lists, h, fun rest _ _ hw => hw⟩

omit [DecidableEq α] in
theorem refUs_of_reads
    (h : t.advanceUs = some nowUs) :
    t.refUs = nowUs := by
  rw [Timers.refUs, h, Option.getD_some]

theorem TimersInv.call
    (h : TimersInv t.refUs t)
    (cb : α) (c : TimerCall) :
    TimersInv (t.call cb c).refUs (t.call cb c) := by
  refine ⟨?_, fun kind => ?_⟩
  · have hle := (later_call t cb c).usec_le
    have href := h.ref_le
    unfold Timers.refUs at href ⊢
    rw [(later_call t cb c).advanceUs]
    cases hadv : t.advanceUs with
    | none =>
        exact le_rfl
    | some nowUs =>
        rw [hadv] at href
        exact href.trans hle
  · obtain ⟨lists, hinv⟩ := h.wheel kind
    obtain ⟨lists', hinv', -⟩ := @call_wheel α _ t kind cb lists hinv h.ref_le c
    exact ⟨lists', hinv'⟩

theorem WalkInv.call
    (h : WalkInv nowUs kind rest t)
    (hcb : cb ∉ rest)
    (c : TimerCall) :
    WalkInv nowUs kind rest (t.call cb c) := by
  have hlater := later_call t cb c
  have href := refUs_of_reads h.reads
  have href' := refUs_of_reads (hlater.advanceUs.trans h.reads)
  have hface := hlater.face kind id
  refine ⟨hlater.advanceUs.trans h.reads, ?_, ?_, ?_⟩
  · have hinv := h.timers
    rw [← href] at hinv
    exact href' ▸ hinv.call cb c
  · obtain ⟨lists, hinv, hw⟩ := h.walked
    have hbehind := hinv.position_lt h.behind
    rw [← href] at hinv hbehind
    obtain ⟨lists', hinv', hw'⟩ := call_wheel hinv (href ▸ h.timers.ref_le) c
    exact ⟨lists', href' ▸ hinv', hw' rest hcb hbehind hw⟩
  · rw [hface.current, hface.step, hface.size]
    exact h.behind

theorem WalkInv.calls
    (h : WalkInv nowUs kind rest t)
    (hcb : cb ∉ rest)
    (calls : List TimerCall) :
    WalkInv nowUs kind rest (calls.foldl (Timers.call cb) t) ∧
      Untouched t (calls.foldl (Timers.call cb) t) := by
  induction calls generalizing t with
  | nil =>
      exact ⟨h, Later.refl t⟩
  | cons c calls ih =>
      obtain ⟨hinv, hlater⟩ := ih (h.call hcb c)
      exact ⟨hinv, (later_call t cb c).trans hlater⟩

/-- A handler of the walk: its entry leaves the list, whatever calls it makes for its block. -/
theorem WalkInv.handleTimeout
    (h : WalkInv nowUs kind (cb :: rest) t)
    (calls : List TimerCall) :
    (t.wheels kind).links.next cb = rest.head? ∧
      WalkInv nowUs kind rest (t.handleTimeout kind cb calls) ∧
      Untouched t (t.handleTimeout kind cb calls) := by
  obtain ⟨lists, hinv, hw⟩ := h.walked
  obtain ⟨hnext, hcb, lists', hinv', hw'⟩ :=
    @WheelInv.expire α _ nowUs t.usec _ _ cb rest hinv h.timers.ref_le h.behind hw
  have hlater : Untouched t (t.onWheel kind fun w => w.expire cb t.usec) :=
    later_onWheel fun _ => ⟨rfl, rfl, rfl, rfl, rfl, rfl⟩
  have hwalk : WalkInv nowUs kind rest (t.onWheel kind fun w => w.expire cb t.usec) := by
    refine ⟨h.reads, ⟨h.timers.ref_le, fun k => ?_⟩, ?_, ?_⟩
    · by_cases hk : k = kind
      · subst hk
        rw [onWheel_self]
        exact ⟨lists', hinv'⟩
      · rw [onWheel_of_ne _ hk]
        exact h.timers.wheel k
    · rw [onWheel_self]
      exact ⟨lists', hinv', hw'⟩
    · rw [onWheel_self]
      exact h.behind
  obtain ⟨hcalls, hlater'⟩ := hwalk.calls hcb calls
  exact ⟨hnext, hcalls, hlater.trans hlater'⟩

/-- The walk of one bucket, by induction on the runs left. -/
theorem walkBucket_inv
    (handler : Handler α) (left : Nat)
    (h : WalkInv nowUs kind rest t) :
    ∃ rest', WalkInv nowUs kind rest' (walkBucket handler kind left rest.head? t).1 ∧
      Untouched t (walkBucket handler kind left rest.head? t).1 ∧
      ((walkBucket handler kind left rest.head? t).2 ≠ 0 → rest' = []) := by
  induction left generalizing t rest with
  | zero =>
      exact ⟨rest, h, Later.refl t, fun hne => absurd rfl hne⟩
  | succ left ih =>
      cases rest with
      | nil =>
          exact ⟨[], h, Later.refl t, fun _ => rfl⟩
      | cons cb rest =>
          obtain ⟨hnext, hwalk, hlater⟩ := h.handleTimeout (handler kind cb left)
          obtain ⟨rest', hinv, hlater', hdone⟩ := ih hwalk
          rw [List.head?_cons, walkBucket, hnext]
          exact ⟨rest', hinv, hlater.trans hlater', hdone⟩

/-- A wheel that an advance has walked; without a cut the pointer is at the step of `nowUs`. -/
structure Advanced (nowUs : Nat) (w w' : TmrWheel α) (left : Nat) : Prop where
  size : w'.twSize = w.twSize
  step : w'.twStep = w.twStep
  position : w.position ≤ w'.position
  reached : left ≠ 0 → w'.twCurrent = nowUs / w.twStep % w.twSize

theorem WalkInv.passBucket
    (h : WalkInv nowUs kind [] t) :
    TimersInv nowUs (t.onWheel kind TmrWheel.passBucket) := by
  obtain ⟨lists, hinv, hw⟩ := h.walked
  refine ⟨h.timers.ref_le, fun k => ?_⟩
  by_cases hk : k = kind
  · subst hk
    rw [onWheel_self]
    exact ⟨lists, hinv.passBucket h.behind hw⟩
  · rw [onWheel_of_ne _ hk]
    exact h.timers.wheel k

/-- The walk of the wheel, by induction on the fuel, which exceeds the buckets to pass. -/
theorem walkWheel_inv
    (handler : Handler α) (fuel left : Nat)
    (hreads : t.advanceUs = some nowUs)
    (h : TimersInv nowUs t)
    (hfuel : lag (t.wheels kind).twSize (nowUs / (t.wheels kind).twStep)
      (t.wheels kind).twCurrent < fuel) :
    let walked := walkWheel handler kind
      (nowUs / (t.wheels kind).twStep % (t.wheels kind).twSize) fuel left t
    TimersInv nowUs walked.1 ∧ Later (· = kind) t walked.1 ∧
      Advanced nowUs (t.wheels kind) (walked.1.wheels kind) walked.2 := by
  induction fuel generalizing t left with
  | zero =>
      exact absurd hfuel (Nat.not_lt_zero _)
  | succ fuel ih =>
      rw [walkWheel]
      split
      · rename_i hcur
        exact ⟨h, Later.refl t, rfl, rfl, le_rfl, fun _ => hcur⟩
      · rename_i hcur
        obtain ⟨lists, hinv⟩ := h.wheel kind
        have hstart : WalkInv nowUs kind (lists (t.wheels kind).twCurrent) t :=
          ⟨hreads, h, ⟨lists, hinv, [], rfl, by simp⟩, hcur⟩
        obtain ⟨rest', hwalk, hlater, hdone⟩ := walkBucket_inv handler left hstart
        rw [← hinv.represents.first_eq] at hwalk hlater hdone
        generalize walkBucket handler kind left
          ((t.wheels kind).links.first (t.wheels kind).twCurrent) t = walked at hwalk hlater hdone ⊢
        have hface := hlater.face kind id
        by_cases hleft : walked.2 = 0
        · rw [if_pos hleft]
          exact ⟨hwalk.timers, hlater.mono fun _ hf => hf.elim, hface.size, hface.step,
            hface.position.ge, fun hne => absurd hleft hne⟩
        · rw [if_neg hleft]
          have hnil : rest' = [] := hdone hleft
          subst hnil
          have hpass := lag_pass hinv.size_pos hinv.current_lt hcur
          have hnext := @ih (walked.1.onWheel kind TmrWheel.passBucket) walked.2 hwalk.reads
            hwalk.passBucket (by
              rw [onWheel_self]
              simp only [TmrWheel.passBucket, hface.size, hface.step, hface.current]
              omega)
          rw [onWheel_self] at hnext
          simp only [TmrWheel.passBucket, hface.size, hface.step] at hnext
          obtain ⟨hinv', hlater', hadv⟩ := hnext
          have hstep : Later (· = kind) walked.1 (walked.1.onWheel kind TmrWheel.passBucket) :=
            later_onWheel fun hk => absurd rfl hk
          refine ⟨hinv', ((hlater.mono fun _ hf => hf.elim).trans hstep).trans hlater', ?_⟩
          refine ⟨hadv.size, hadv.step, ?_, hadv.reached⟩
          have hpos := hadv.position
          simp only [hface.position] at hpos
          omega

theorem tpgTimeWheelAdvance_inv
    {now : Nat}
    (handler : Handler α)
    (hreads : t.advanceUs = some nowUs)
    (hnow : now / t.cyclesPerUs = nowUs)
    (h : TimersInv nowUs t) :
    TimersInv nowUs (tpgTimeWheelAdvance handler t kind now) ∧
      Later (· = kind) t (tpgTimeWheelAdvance handler t kind now) ∧
      Advanced nowUs (t.wheels kind) ((tpgTimeWheelAdvance handler t kind now).wheels kind)
        ((tpgTimeWheelAdvance handler t kind now).wheels kind).runsLeft := by
  obtain ⟨lists, hinv⟩ := h.wheel kind
  obtain ⟨hinv', hlater, hadv⟩ :=
    walkWheel_inv handler (t.wheels kind).twSize tmrMaxRunCnt hreads h (lag_lt hinv.size_pos)
  simp only [tpgTimeWheelAdvance, hnow, onWheel_self]
  refine ⟨⟨hinv'.ref_le, fun k => ?_⟩, hlater.trans (later_onWheel fun hk => absurd rfl hk),
    hadv.size, hadv.step, hadv.position, hadv.reached⟩
  by_cases hk : k = kind
  · subst hk
    rw [onWheel_self]
    obtain ⟨lists', hw⟩ := hinv'.wheel k
    exact ⟨lists', { hw with }⟩
  · rw [onWheel_of_ne _ hk]
    exact hinv'.wheel k

/-- A pointer that lagged less than a revolution and was not cut short is at the current step. -/
theorem Advanced.caught_up
    {w w' : TmrWheel α} {left : Nat} {lists : Nat → List α}
    (h : Advanced nowUs w w' left)
    (hinv : WheelInv nowUs w' lists)
    (hlag : nowUs / w.twStep < w.position + w.twSize)
    (hleft : left ≠ 0) :
    w'.position = nowUs / w'.twStep := by
  have hpos := h.position
  have hle := hinv.position_le
  have hmod : w'.position % w.twSize = nowUs / w.twStep % w.twSize := by
    rw [← h.reached hleft, hinv.current_eq, h.size]
  rw [h.step] at hle ⊢
  by_contra hne
  have hdvd := (Nat.modEq_iff_dvd' hle).1 hmod
  have hsize := Nat.le_of_dvd (by omega) hdvd
  omega

/-- What one call of `time_advance` achieves for a wheel it advances. -/
def CatchesUp (kind : TimerKind) (t t' : Timers α) : Prop :=
  tcpTimeShouldAdvance t kind t.cycles = true →
    t.usec / (t.wheels kind).twStep < (t.wheels kind).position + (t.wheels kind).twSize →
      (t'.wheels kind).runsLeft ≠ 0 →
        (t'.wheels kind).position = t.usec / (t.wheels kind).twStep

/-- The advances of several wheels, by induction on the wheels to go. -/
theorem advanceWheels_inv
    {now : Nat}
    (handler : Handler α) (kinds : List TimerKind)
    (hnodup : kinds.Nodup)
    (hreads : t.advanceUs = some nowUs)
    (hnow : now / t.cyclesPerUs = nowUs)
    (h : TimersInv nowUs t) :
    TimersInv nowUs (kinds.foldl (advanceWheel handler now) t) ∧
      Later (· ∈ kinds) t (kinds.foldl (advanceWheel handler now) t) ∧
      ∀ k ∈ kinds, tcpTimeShouldAdvance t k now = true →
        nowUs / (t.wheels k).twStep < (t.wheels k).position + (t.wheels k).twSize →
          ((kinds.foldl (advanceWheel handler now) t).wheels k).runsLeft ≠ 0 →
            ((kinds.foldl (advanceWheel handler now) t).wheels k).position =
              nowUs / (t.wheels k).twStep := by
  induction kinds generalizing t with
  | nil =>
      exact ⟨h, Later.refl t, by simp⟩
  | cons kind kinds ih =>
      obtain ⟨hkind, hkinds⟩ := List.nodup_cons.1 hnodup
      -- what the first wheel's turn does, whether it is advanced or not
      have hfirst : TimersInv nowUs (advanceWheel handler now t kind) ∧
          Later (· = kind) t (advanceWheel handler now t kind) ∧
          (tcpTimeShouldAdvance t kind now = true →
            Advanced nowUs (t.wheels kind) ((advanceWheel handler now t kind).wheels kind)
              ((advanceWheel handler now t kind).wheels kind).runsLeft) := by
        unfold advanceWheel
        split
        · obtain ⟨hinv, hlater, hadv⟩ :=
            @tpgTimeWheelAdvance_inv α _ t kind nowUs now handler hreads hnow h
          exact ⟨hinv, hlater, fun _ => hadv⟩
        · rename_i hnot
          exact ⟨h, Later.refl t, fun hshould => absurd hshould hnot⟩
      obtain ⟨hinv, hlater, hadv⟩ := hfirst
      rw [List.foldl_cons]
      generalize advanceWheel handler now t kind = t₁ at hinv hlater hadv ⊢
      obtain ⟨hinv', hlater', hcaught⟩ := ih hkinds (hlater.advanceUs.trans hreads)
        (hlater.cyclesPerUs ▸ hnow) hinv
      have hall : Later (· ∈ kind :: kinds) t (kinds.foldl (advanceWheel handler now) t₁) :=
        (hlater.mono fun k hk => by simp [hk]).trans
          (hlater'.mono fun k hk => List.mem_cons_of_mem kind hk)
      refine ⟨hinv', hall, ?_⟩
      intro k hk hshould hlag hleft
      by_cases hkk : k = kind
      · subst hkk
        have hface := hlater'.face k hkind
        obtain ⟨lists, hw⟩ := hinv.wheel k
        have hadv := hadv hshould
        rw [hface.runsLeft] at hleft
        rw [hface.position, hadv.caught_up hw hlag hleft, hadv.step]
      · have hface := hlater.face k hkk
        have hshould' : tcpTimeShouldAdvance t₁ k now = true := by
          rw [tcpTimeShouldAdvance, hface.lastAdvance, hlater.cyclesPerUs]
          exact hshould
        have hstep := hcaught k (by simpa [hkk] using hk) hshould'
        rw [hface.step, hface.position, hface.size] at hstep
        exact hstep hlag hleft

/-- The invariant between two inputs. -/
structure RunInv (t : Timers α) : Prop where
  idle : t.advanceUs = none
  timers : TimersInv t.usec t

theorem RunInv.timeAdvance
    (h : RunInv t)
    (handler : Handler α) :
    RunInv (timeAdvance handler t) ∧ ∀ kind, CatchesUp kind t (timeAdvance handler t) := by
  have hstart : TimersInv t.usec { t with advanceUs := some t.usec } :=
    ⟨le_rfl, h.timers.wheel⟩
  obtain ⟨hinv, hlater, hcaught⟩ :=
    @advanceWheels_inv α _ { t with advanceUs := some t.usec } t.usec t.cycles handler
      [.slow, .rto, .test] (by decide) rfl rfl hstart
  refine ⟨⟨rfl, le_rfl, fun kind => ?_⟩, fun kind hshould hlag hleft => ?_⟩
  · obtain ⟨lists, hw⟩ := hinv.wheel kind
    exact ⟨lists, hw.mono hinv.ref_le⟩
  · exact hcaught kind (by cases kind <;> decide) hshould hlag hleft

theorem RunInv.step
    (h : RunInv t)
    (i : TimerInput α) :
    RunInv (timerStep t i) := by
  cases i with
  | call cb c =>
      have hidle : (t.call cb c).advanceUs = none :=
        (later_call t cb c).advanceUs.trans h.idle
      have hinv : TimersInv t.refUs t := by
        rw [Timers.refUs, h.idle]
        exact h.timers
      have hinv' := hinv.call cb c
      rw [Timers.refUs, hidle] at hinv'
      exact ⟨hidle, hinv'⟩
  | advance handler =>
      exact (h.timeAdvance handler).1

theorem runInv_init
    (cfg : TimerKind → WheelConfig) (cycles cyclesPerUs : Nat)
    (next : TimerKind → α → Option α) (prev : TimerKind → α → Place Nat α) :
    RunInv (timerLcoreInit cfg cycles cyclesPerUs next prev) := by
  refine ⟨rfl, le_rfl, fun kind => ⟨fun _ => [], ?_⟩⟩
  exact ⟨(cfg kind).size_pos, (cfg kind).step_pos, rfl, le_rfl, Represents.of_empty fun _ => rfl,
    by simp [timerLcoreInit, TmrWheel.timerInitWheel], by simp, fun _ _ => rfl, trivial,
    fun _ => trivial⟩

theorem runInv_run
    (cfg : TimerKind → WheelConfig) (cycles cyclesPerUs : Nat)
    (next : TimerKind → α → Option α) (prev : TimerKind → α → Place Nat α)
    (is : List (TimerInput α)) :
    RunInv (run timerStep (timerLcoreInit cfg cycles cyclesPerUs next prev) is) := by
  have hinv := runInv_init cfg cycles cyclesPerUs next prev
  generalize timerLcoreInit cfg cycles cyclesPerUs next prev = t at hinv
  induction is generalizing t with
  | nil =>
      exact hinv
  | cons i is ih =>
      exact ih (timerStep t i) (hinv.step i)

end Core

/-! ## Results -/

/-- Armings and their ends alternate, the armed timers are those with the flag, and none of
them is due at a position that the pointer has passed. -/
structure InOrder (w : TmrWheel α) : Prop where
  alternates : Alternates w.trace
  flag : ∀ cb, w.onList cb = true ↔ (pending cb w.trace).isSome = true
  notPassed : ∀ cb, ∀ a ∈ pending cb w.trace, w.position ≤ due w.twStep a

/-- Every timer of the wheel was set in turn so far. -/
structure ArmedInTurn (w : TmrWheel α) : Prop where
  all : AllInTurn w.twSize w.twStep w.trace

/-- No timer of the wheel has fired early so far. -/
structure NoEarlyExpiry (w : TmrWheel α) : Prop where
  all : NeverEarly w.twStep w.trace

theorem WheelInv.inOrder
    {refUs : Nat} {w : TmrWheel α} {lists : Nat → List α}
    (h : WheelInv refUs w lists) :
    InOrder w := by
  refine ⟨h.alternates, fun cb => ?_, fun cb a ha => ?_⟩
  · rw [h.flag]
    constructor
    · rintro ⟨b, hb⟩
      obtain ⟨a, ha, -⟩ := h.armed b cb hb
      rw [ha]
      rfl
    · intro hsome
      by_contra hoff
      rw [h.idle cb fun b hb => hoff ⟨b, hb⟩] at hsome
      cases hsome
  · by_contra hlt
    have hin : ∃ b, cb ∈ lists b := by
      by_contra hoff
      rw [h.idle cb fun b hb => hoff ⟨b, hb⟩] at ha
      cases ha
    obtain ⟨b, hb⟩ := hin
    obtain ⟨a', ha', -, hpos, -⟩ := h.armed b cb hb
    obtain rfl : a' = a := Option.some.inj (ha'.symm.trans ha)
    exact hlt hpos

/-- In every such run whose armings are in turn: an arming may not reach the pointer again. -/
theorem timers_never_early
    (cfg : TimerKind → WheelConfig) (cycles cyclesPerUs : Nat)
    (next : TimerKind → α → Option α) (prev : TimerKind → α → Place Nat α)
    (is : List (TimerInput α)) (kind : TimerKind)
    (hturn : ArmedInTurn
      ((run timerStep (timerLcoreInit cfg cycles cyclesPerUs next prev) is).wheels kind)) :
    NoEarlyExpiry
      ((run timerStep (timerLcoreInit cfg cycles cyclesPerUs next prev) is).wheels kind) := by
  obtain ⟨lists, hinv⟩ := (runInv_run cfg cycles cyclesPerUs next prev is).timers.wheel kind
  exact ⟨hinv.onTime hturn.all⟩

section Runs

instance NeverEarly.decidable (step : Nat) :
    (trace : List (TimerEvent α)) → Decidable (NeverEarly step trace)
  | [] => isTrue trivial
  | .armed _ _ :: trace => NeverEarly.decidable step trace
  | .cancelled _ _ :: trace => NeverEarly.decidable step trace
  | .fired _ _ :: trace =>
      have := NeverEarly.decidable step trace
      inferInstanceAs (Decidable (_ ∧ _))

instance AllInTurn.decidable (size step : Nat) :
    (trace : List (TimerEvent α)) → Decidable (AllInTurn size step trace)
  | [] => isTrue trivial
  | .armed _ _ :: trace =>
      have := AllInTurn.decidable size step trace
      inferInstanceAs (Decidable (_ ∧ _))
  | .cancelled _ _ :: trace => AllInTurn.decidable size step trace
  | .fired _ _ :: trace => AllInTurn.decidable size step trace

instance (w : TmrWheel α) : Decidable (ArmedInTurn w) :=
  decidable_of_iff (AllInTurn w.twSize w.twStep w.trace) ⟨.mk, ArmedInTurn.all⟩

instance (w : TmrWheel α) : Decidable (NoEarlyExpiry w) :=
  decidable_of_iff (NeverEarly w.twStep w.trace) ⟨.mk, NoEarlyExpiry.all⟩

/-- The wheels of a core just started, with a clock of one cycle in a microsecond. -/
def startedWheels : Timers Nat :=
  timerLcoreInit defaultWheels 0 1 (fun _ _ => none) (fun _ _ => .head 0)

/-- A retransmission timeout of 500 us fires once and its handler sets it again. -/
def resentTwice : List (TimerInput Nat) :=
  [.call 1 (.set .rto 500), .call 1 (.wait 560), .advance fun _ _ _ => [.set .rto 500],
    .call 1 (.wait 560), .advance fun _ _ _ => []]

theorem timers_never_early_resentTwice :
    ArmedInTurn ((run timerStep startedWheels resentTwice).wheels .rto) ∧
      NoEarlyExpiry ((run timerStep startedWheels resentTwice).wheels .rto) := by
  have hturn : ArmedInTurn ((run timerStep startedWheels resentTwice).wheels .rto) := by
    decide +kernel
  exact ⟨hturn, timers_never_early defaultWheels 0 1 (fun _ _ => none) (fun _ _ => .head 0)
    resentTwice .rto hturn⟩

/-- An uptime of 30 minutes, which the test timer's wheel accepts, is over after 101 us. -/
theorem longUptime_fires_early :
    (startedWheels.timerSet .test 7 1800000000).2 = .ok ∧
      ¬ NoEarlyExpiry ((run timerStep startedWheels
        [.call 7 (.set .test 1800000000), .call 7 (.wait 101),
          .advance fun _ _ _ => []]).wheels .test) := by
  decide +kernel

end Runs

end TimerExpiry
end Warp17
