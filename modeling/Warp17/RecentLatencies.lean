import Mathlib.Data.List.GetD
import Warp17.LatencyAggregation

/-!
# The most recent latencies

Beside the statistics over all samples a packet core keeps the latest samples of a test case in
a `test_oper_latency_state_t` (`test_latency_state_add` in src/src/tpg_tests.c).  A stats request
folds them into `gls_sample_stats`.

The array has `TPG_TSTAMP_SAMPLES_MAX_BUFSIZE` entries, the largest length that the management
interface accepts; here it has the `tols_length` entries in use.

The place of a new sample is counted from `tols_start_index`, which never moves.  Once the
buffer is full, every further sample goes to entry 0.

**Results**
- `added_entries`: what the entries hold after any number of samples.
- `recent_ok_iff`: the buffer has the last samples in their order just when it has not been
  filled, or has one entry, or the samples repeat.
- `recent_ok_always_iff`: the numbers of samples for which that is so whatever the samples are.
-/

namespace Warp17
namespace LatencyAggregation

open TestCaseConfig

/-- `test_oper_latency_state_t` -/
structure TestOperLatencyState where
  tolsTimestamps : List Nat
  tolsLength : Nat
  tolsActualLength : Nat
  tolsStartIndex : Nat
deriving DecidableEq, Repr

def testLatencyStateInit (len : Nat) : TestOperLatencyState :=
  ⟨List.replicate len 0, len, 0, 0⟩

/-- A sample that is overwritten is taken out of the statistics, with the arithmetic of 64 bits. -/
def testLatencyStateAdd (buffer : TestOperLatencyState) (tstamp : Nat)
    (sampleStats : LatencyStats) : TestOperLatencyState × LatencyStats :=
  let position := (buffer.tolsActualLength + buffer.tolsStartIndex) % buffer.tolsLength
  if buffer.tolsActualLength + 1 ≤ buffer.tolsLength then
    ({ buffer with
        tolsTimestamps := buffer.tolsTimestamps.set position tstamp
        tolsActualLength := buffer.tolsActualLength + 1 },
      sampleStats)
  else
    let retainTstamp := buffer.tolsTimestamps.getD position 0
    ({ buffer with tolsTimestamps := buffer.tolsTimestamps.set position tstamp },
      { sampleStats with
        lsSumLatency := (sampleStats.lsSumLatency + (2 ^ 64 - retainTstamp % 2 ^ 64)) % 2 ^ 64
        lsSamplesCount := (sampleStats.lsSamplesCount + (2 ^ 64 - 1)) % 2 ^ 64 })

/-- The end of `test_update_latency`: a test case may ask for no recent samples at all. -/
def updateRecent (buffer : TestOperLatencyState) (latency : Nat) (sampleStats : LatencyStats) :
    TestOperLatencyState × LatencyStats :=
  if buffer.tolsLength ≠ 0 then testLatencyStateAdd buffer latency sampleStats
  else (buffer, sampleStats)

def testUpdateRecentLatencyStats (buffer : TestOperLatencyState) (tcLatency : TestCaseLatency) :
    LatencyStats :=
  (List.range buffer.tolsActualLength).foldl
    (fun stats i => testUpdateLatencyStats stats (buffer.tolsTimestamps.getD i 0) tcLatency)
    { LatencyStats.zero with lsMinLatency := 2 ^ 32 - 1 }

/-- The buffer and the statistics after some samples. -/
def added (len : Nat) (sampleStats : LatencyStats) (samples : List Nat) :
    TestOperLatencyState × LatencyStats :=
  samples.foldl (fun s latency => updateRecent s.1 latency s.2)
    (testLatencyStateInit len, sampleStats)

/-- The samples that the buffer holds, in the order of the loop over them. -/
def TestOperLatencyState.held (buffer : TestOperLatencyState) : List Nat :=
  (List.range buffer.tolsActualLength).map (buffer.tolsTimestamps.getD · 0)

/-- The last of the samples, as many as there is room for. -/
def lastSamples (len : Nat) (samples : List Nat) : List Nat :=
  samples.drop (samples.length - len)

/-- The buffer holds the last samples, and the statistics are those of the last samples. -/
structure RecentOk (len : Nat) (sampleStats : LatencyStats) (samples : List Nat) : Prop where
  holds : (added len sampleStats samples).1.held = lastSamples len samples
  folds : ∀ tcLatency,
    testUpdateRecentLatencyStats (added len sampleStats samples).1 tcLatency =
      (lastSamples len samples).foldl (fun stats latency =>
        testUpdateLatencyStats stats latency tcLatency)
        { LatencyStats.zero with lsMinLatency := 2 ^ 32 - 1 }

/--
The newest sample is the same as the oldest one still wanted, and the others that were added
before the buffer was full are the same as the ones wanted in their place.
-/
def Repeats (len : Nat) (samples : List Nat) : Prop :=
  samples.getD (samples.length - 1) 0 = samples.getD (samples.length - len) 0 ∧
    ∀ i, 0 < i → i < len →
      samples.getD i 0 = samples.getD (samples.length - len + i) 0

section Entries

variable {len : Nat} {sampleStats : LatencyStats} {samples : List Nat}

theorem added_append
    (latency : Nat) :
    added len sampleStats (samples ++ [latency]) =
      updateRecent (added len sampleStats samples).1 latency (added len sampleStats samples).2 := by
  rw [added, List.foldl_append]
  rfl

/-- The buffer after some samples; entry 0 is the newest sample once all entries are in use. -/
structure Entries (len : Nat) (samples : List Nat) (buffer : TestOperLatencyState) : Prop where
  slots : buffer.tolsTimestamps.length = len
  length : buffer.tolsLength = len
  actual : buffer.tolsActualLength = min samples.length len
  start : buffer.tolsStartIndex = 0
  first : len < samples.length → 0 < len →
    buffer.tolsTimestamps.getD 0 0 = samples.getD (samples.length - 1) 0
  kept : ∀ i < min samples.length len, (i = 0 → samples.length ≤ len) →
    buffer.tolsTimestamps.getD i 0 = samples.getD i 0

theorem getD_set
    {slots : List Nat} {i : Nat} (value : Nat)
    (hi : i < slots.length)
    (j : Nat) :
    (slots.set i value).getD j 0 = if i = j then value else slots.getD j 0 := by
  rw [List.getD_eq_getElem?_getD, List.getD_eq_getElem?_getD, List.getElem?_set]
  by_cases hij : i = j
  · rw [if_pos hij, if_pos hi, if_pos hij, Option.getD_some]
  · rw [if_neg hij, if_neg hij]

theorem getD_append_last
    (latency i : Nat) :
    (samples ++ [latency]).getD i 0 =
      if i = samples.length then latency else samples.getD i 0 := by
  rcases lt_trichotomy i samples.length with hlt | rfl | hlt
  · rw [List.getD_append _ _ _ _ hlt, if_neg hlt.ne]
  · rw [List.getD_append_right _ _ _ _ le_rfl, Nat.sub_self, if_pos rfl, List.getD_cons_zero]
  · rw [List.getD_append_right _ _ _ _ hlt.le, if_neg hlt.ne', List.getD_eq_default _ _ hlt.le]
    obtain ⟨k, hk⟩ := Nat.exists_eq_succ_of_ne_zero (Nat.sub_ne_zero_of_lt hlt)
    rw [hk]
    rfl

/-- One more sample, by whether there is an unused entry. -/
theorem Entries.add
    {buffer : TestOperLatencyState}
    (h : Entries len samples buffer)
    (hlen : 0 < len)
    (latency : Nat) :
    Entries len (samples ++ [latency]) (testLatencyStateAdd buffer latency sampleStats).1 := by
  obtain ⟨hslots, hlength, hactual, hstart, hfirst, hkept⟩ := h
  rw [testLatencyStateAdd, hlength, hactual, hstart]
  by_cases hroom : samples.length < len
  · have hplace : (min samples.length len + 0) % len = samples.length := by
      rw [Nat.add_zero, min_eq_left hroom.le, Nat.mod_eq_of_lt hroom]
    rw [if_pos (by omega), hplace]
    constructor
    · rw [List.length_set, hslots]
    · rfl
    · rw [List.length_append, List.length_singleton]
      dsimp only
      omega
    · rfl
    · intro hfull
      rw [List.length_append, List.length_singleton] at hfull
      omega
    · intro i hi hi0
      rw [List.length_append, List.length_singleton] at hi
      rw [getD_set _ (by omega), getD_append_last]
      by_cases hij : samples.length = i
      · rw [if_pos hij, if_pos hij.symm]
      · rw [if_neg hij, if_neg (Ne.symm hij)]
        exact hkept i (by omega) fun _ => hroom.le
  · -- the place of the sample is entry 0
    have hplace : (min samples.length len + 0) % len = 0 := by
      rw [Nat.add_zero, min_eq_right (Nat.le_of_not_lt hroom), Nat.mod_self]
    rw [if_neg (by omega), hplace]
    constructor
    · rw [List.length_set, hslots]
    · rfl
    · rw [List.length_append, List.length_singleton]
      dsimp only
      omega
    · rfl
    · intro _ _
      rw [getD_set _ (by omega), if_pos rfl, List.length_append, List.length_singleton,
        Nat.add_sub_cancel, getD_append_last, if_pos rfl]
    · intro i hi hi0
      rw [List.length_append, List.length_singleton] at hi hi0
      have hpos : 0 ≠ i := by
        rintro rfl
        have := hi0 rfl
        omega
      rw [getD_set _ (by omega), if_neg hpos, getD_append_last, if_neg (by omega)]
      exact hkept i (by omega) fun h0 => absurd h0.symm hpos

/-- The entries after any number of samples, by induction on the samples from the last one. -/
theorem added_entries :
    Entries len samples (added len sampleStats samples).1 := by
  induction samples using List.reverseRecOn with
  | nil =>
      exact ⟨List.length_replicate, rfl, (Nat.zero_min _).symm, rfl,
        fun h => absurd h (Nat.not_lt_zero _), fun i hi => absurd hi (by simp)⟩
  | append_singleton samples latency ih =>
      rw [added_append, updateRecent, ih.length]
      by_cases hlen : len = 0
      · subst hlen
        rw [if_neg (fun h => h rfl)]
        exact ⟨ih.slots, ih.length, by rw [ih.actual]; omega, ih.start,
          fun _ h => absurd h (Nat.lt_irrefl _), fun i hi => by omega⟩
      · rw [if_pos hlen]
        exact ih.add (Nat.pos_of_ne_zero hlen) latency

end Entries

section Recent

variable {len : Nat} {sampleStats : LatencyStats} {samples : List Nat}

/-- The statistics are those of the samples in the buffer. -/
theorem testUpdateRecentLatencyStats_eq
    (buffer : TestOperLatencyState) (tcLatency : TestCaseLatency) :
    testUpdateRecentLatencyStats buffer tcLatency =
      buffer.held.foldl (fun stats latency => testUpdateLatencyStats stats latency tcLatency)
        { LatencyStats.zero with lsMinLatency := 2 ^ 32 - 1 } := by
  rw [testUpdateRecentLatencyStats, TestOperLatencyState.held, List.foldl_map]

theorem recentOk_iff_held :
    RecentOk len sampleStats samples ↔
      (added len sampleStats samples).1.held = lastSamples len samples := by
  constructor
  · intro h
    exact h.holds
  · intro h
    exact ⟨h, fun tcLatency => by rw [testUpdateRecentLatencyStats_eq, h]⟩

/-- Two lists of the same length, entry by entry. -/
theorem eq_iff_getD
    {l l' : List Nat}
    (hlength : l.length = l'.length) :
    l = l' ↔ ∀ i < l.length, l.getD i 0 = l'.getD i 0 := by
  constructor
  · rintro rfl i _
    rfl
  · intro h
    refine List.ext_getElem hlength fun i hi hi' => ?_
    have hget := h i hi
    rwa [List.getD_eq_getElem _ _ hi, List.getD_eq_getElem _ _ hi'] at hget

theorem held_eq_iff :
    (added len sampleStats samples).1.held = lastSamples len samples ↔
      ∀ i < min samples.length len,
        (added len sampleStats samples).1.tolsTimestamps.getD i 0 =
          samples.getD (samples.length - len + i) 0 := by
  have hentries := @added_entries len sampleStats samples
  have hheld : (added len sampleStats samples).1.held.length = min samples.length len := by
    rw [TestOperLatencyState.held, List.length_map, List.length_range, hentries.actual]
  rw [eq_iff_getD (by rw [hheld, lastSamples, List.length_drop]; omega), hheld]
  refine forall₂_congr fun i hi => ?_
  rw [TestOperLatencyState.held, List.getD_eq_getElem _ _ (by simpa [hentries.actual] using hi),
    List.getElem_map, List.getElem_range, lastSamples,
    List.getD_eq_getElem (samples.drop _) 0 (by rw [List.length_drop]; omega), List.getElem_drop,
    List.getD_eq_getElem samples 0 (by omega)]

/-- The last samples in their order of arrival. -/
theorem recent_ok_iff :
    RecentOk len sampleStats samples ↔
      len ≤ 1 ∨ samples.length ≤ len ∨ Repeats len samples := by
  obtain ⟨-, -, -, -, hfirst, hkept⟩ := @added_entries len sampleStats samples
  rw [recentOk_iff_held, held_eq_iff]
  by_cases hfits : samples.length ≤ len
  · refine iff_of_true ?_ (.inr (.inl hfits))
    intro i hi
    rw [hkept i hi fun _ => hfits, Nat.sub_eq_zero_of_le hfits, Nat.zero_add]
  · have hfull : len < samples.length := Nat.lt_of_not_le hfits
    rw [min_eq_right hfull.le] at hkept ⊢
    constructor
    · intro h
      by_cases hone : len ≤ 1
      · exact .inl hone
      · refine .inr (.inr ⟨?_, ?_⟩)
        · rw [← hfirst hfull (by omega), h 0 (by omega), Nat.add_zero]
        · intro i hi hlen
          rw [← hkept i hlen fun h0 => absurd h0 hi.ne', h i hlen]
    · rintro (hone | hfits' | ⟨hnewest, hothers⟩) i hi
      · obtain rfl : i = 0 := by omega
        obtain rfl : len = 1 := by omega
        exact hfirst hfull (by omega)
      · exact absurd hfits' hfits
      · by_cases hi0 : i = 0
        · rw [hi0, hfirst hfull (by omega), hnewest, Nat.add_zero]
        · rw [hkept i hi fun h0 => absurd h0 hi0, hothers i (Nat.pos_of_ne_zero hi0) hi]

/-- Three samples for two entries: the buffer holds the third and the second. -/
theorem recent_not_ok_three :
    ¬ RecentOk 2 LatencyStats.zero [10, 20, 30] := by
  intro h
  exact absurd h.holds (by decide)

/-- The samples can only be trusted up to the length of the buffer. -/
theorem recent_ok_always_iff
    {n : Nat} :
    (∀ samples : List Nat, samples.length = n → RecentOk len sampleStats samples) ↔
      len ≤ 1 ∨ n ≤ len := by
  constructor
  · intro h
    have hrange := h (List.range n) List.length_range
    rw [recent_ok_iff, List.length_range] at hrange
    rcases hrange with hone | hfits | ⟨-, hothers⟩
    · exact .inl hone
    · exact .inr hfits
    · by_contra hnone
      have hlate := hothers 1 (by omega) (by omega)
      rw [List.length_range, List.getD_eq_getElem _ _ (by rw [List.length_range]; omega),
        List.getD_eq_getElem _ _ (by rw [List.length_range]; omega), List.getElem_range,
        List.getElem_range] at hlate
      omega
  · rintro (hone | hfits) samples rfl
    · exact recent_ok_iff.2 (.inl hone)
    · exact recent_ok_iff.2 (.inr (.inl hfits))

end Recent

end LatencyAggregation
end Warp17
