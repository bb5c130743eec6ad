import Mathlib.Tactic

/-!
# IPv4 options

`ipv4_parse_options` steps over the options of a received header by their length bytes and reads
the timestamp option (src/src/tpg_ipv4.c).  Every option is read as one with a length byte; only
the length of a timestamp option is compared with a minimum.

The header is a function from offsets to bytes.  The loop has fuel, and it lists the options that
it steps over and the offsets that it reads.

**Results**
- `reads_lt`: what is read lies inside the declared header, in every run.
- `parsesRight_iff`: the headers whose options are parsed as the standard says.
-/

namespace Warp17
namespace Ipv4Options

/-- `IPOPT_TS` -/
def ipoptTs : UInt8 :=
  68

/-- `sizeof(ipv4_option_hdr_t)` -/
def optionHdrSize : Nat :=
  4

/-- `sizeof(ipv4_tstamp_option_t)` -/
def tstampOptionSize : Nat :=
  12

/-- `sizeof(struct rte_ipv4_hdr)` -/
def stdIpv4HdrLen : Nat :=
  20

/-- The end of the parser: the result is 0 or `-EINVAL`. -/
structure OptionsOutcome where
  accepted : Bool
  ipsInvalidOpt : Nat
  tstampValue : BitVec 64
  /-- offset and length of the options that were stepped over -/
  skipped : List (Nat × Nat)
  reads : List Nat
deriving DecidableEq, Repr

/-- `INC_STATS(stats, ips_invalid_opt); return -EINVAL` -/
def corrupted (tstampValue : BitVec 64) (reads : List Nat) : OptionsOutcome where
  accepted := false
  ipsInvalidOpt := 1
  tstampValue := tstampValue
  skipped := []
  reads := reads

/-- One more option in front of the others. -/
def OptionsOutcome.skip (offset len : Nat) (reads : List Nat) (out : OptionsOutcome) :
    OptionsOutcome :=
  { out with skipped := (offset, len) :: out.skipped, reads := reads ++ out.reads }

/-- Four bytes in network order. -/
def be32 (mem : Nat → UInt8) (offset : Nat) : BitVec 32 :=
  (mem offset).toBitVec ++ (mem (offset + 1)).toBitVec ++ (mem (offset + 2)).toBitVec ++
    (mem (offset + 3)).toBitVec

def ipv4ParseOptionTimestamp (mem : Nat → UInt8) (offset : Nat) : BitVec 64 :=
  be32 mem (offset + 8) ++ be32 mem (offset + 4)

/-- The loop, with the length that is left and the offset. -/
def parseOptions (mem : Nat → UInt8) : Nat → Nat → Nat → BitVec 64 → Option OptionsOutcome
  | 0, _, _, _ => none
  | fuel + 1, totalLen, offset, tstampValue =>
      if totalLen = 0 then some ⟨true, 0, tstampValue, [], []⟩
      else if totalLen < optionHdrSize then some (corrupted tstampValue [])
      else
        let len := (mem (offset + 1)).toNat
        if totalLen < len then some (corrupted tstampValue [offset + 1])
        else if mem offset = ipoptTs then
          if len < tstampOptionSize then some (corrupted tstampValue [offset + 1, offset])
          else
            (parseOptions mem fuel (totalLen - len) (offset + len)
              (ipv4ParseOptionTimestamp mem offset)).map
                (·.skip offset len ([offset + 1, offset] ++ List.range' (offset + 4) 8))
        else
          (parseOptions mem fuel (totalLen - len) (offset + len) tstampValue).map
            (·.skip offset len [offset + 1, offset])

def ipv4ParseOptions (mem : Nat → UInt8) (fuel totalLen : Nat) : Option OptionsOutcome :=
  parseOptions mem fuel (totalLen - stdIpv4HdrLen) stdIpv4HdrLen 0

/-- `(ip_hdr->version_ihl & 0x0F) << 2` -/
def ipHdrLen (mem : Nat → UInt8) : Nat :=
  ((mem 0).toNat &&& 0x0F) <<< 2

/-- The options of a received header. -/
def receiveOptions (mem : Nat → UInt8) (fuel : Nat) : Option OptionsOutcome :=
  if stdIpv4HdrLen < ipHdrLen mem then ipv4ParseOptions mem fuel (ipHdrLen mem)
  else some ⟨true, 0, 0, [], []⟩

/-! ## The standard -/

/-- The least length of an option with a length byte; a timestamp option has two timestamps. -/
def optionMin (code : UInt8) : Nat :=
  if code = ipoptTs then tstampOptionSize else 2

theorem optionMin_pos
    (code : UInt8) :
    2 ≤ optionMin code := by
  rw [optionMin]
  split <;> decide

/-- The option has a length byte that is not too small and stays inside the header. -/
def LengthOk (mem : Nat → UInt8) (totalLen offset : Nat) : Prop :=
  2 ≤ totalLen ∧ optionMin (mem offset) ≤ (mem (offset + 1)).toNat ∧
    (mem (offset + 1)).toNat ≤ totalLen

instance (mem : Nat → UInt8) (totalLen offset : Nat) : Decidable (LengthOk mem totalLen offset) :=
  inferInstanceAs (Decidable (_ ∧ _ ∧ _))

/-- The options to step over, and whether all of them are well formed: 0 ends the list, 1 is an
option of one byte, all others have a length byte. -/
def standardOptions (mem : Nat → UInt8) (totalLen offset : Nat) : List (Nat × Nat) × Bool :=
  if totalLen = 0 then ([], true)
  else if mem offset = 0 then ([], true)
  else if mem offset = 1 then
    let rest := standardOptions mem (totalLen - 1) (offset + 1)
    ((offset, 1) :: rest.1, rest.2)
  else if LengthOk mem totalLen offset then
    let rest := standardOptions mem (totalLen - (mem (offset + 1)).toNat)
      (offset + (mem (offset + 1)).toNat)
    ((offset, (mem (offset + 1)).toNat) :: rest.1, rest.2)
  else ([], false)
termination_by totalLen
decreasing_by
  · omega
  · rename_i h
    have hmin := optionMin_pos (mem offset)
    have hlow := h.2.1
    omega

/-- The parser ends, reads nothing behind the declared header, and steps over the options and
accepts the header as the standard says. -/
def ParsesRight (mem : Nat → UInt8) : Prop :=
  ∃ fuel out, receiveOptions mem fuel = some out ∧ (∀ i ∈ out.reads, i < ipHdrLen mem) ∧
    (out.skipped, out.accepted) = standardOptions mem (ipHdrLen mem - stdIpv4HdrLen) stdIpv4HdrLen

/-- The options that the parser understands: an option of one byte is followed by a 1, no
well-formed option begins in the last three bytes, and a malformed one there, or a timestamp
option, or one that runs past the end, is refused. -/
inductive Understood (mem : Nat → UInt8) : Nat → Nat → Prop
  | done
      (offset : Nat) :
      Understood mem 0 offset
  | nop
      {totalLen offset : Nat}
      (hroom : optionHdrSize ≤ totalLen)
      (hcode : mem offset = 1)
      (hlen : mem (offset + 1) = 1)
      (hrest : Understood mem (totalLen - 1) (offset + 1)) :
      Understood mem totalLen offset
  | skip
      {totalLen offset : Nat}
      (hroom : optionHdrSize ≤ totalLen)
      (hcode : mem offset ≠ 0 ∧ mem offset ≠ 1)
      (hlen : LengthOk mem totalLen offset)
      (hrest : Understood mem (totalLen - (mem (offset + 1)).toNat)
        (offset + (mem (offset + 1)).toNat)) :
      Understood mem totalLen offset
  | refused
      {totalLen offset : Nat}
      (hsome : 0 < totalLen)
      (hcode : mem offset ≠ 0 ∧ mem offset ≠ 1)
      (hlen : ¬ LengthOk mem totalLen offset)
      (hwhy : totalLen < optionHdrSize ∨ totalLen < (mem (offset + 1)).toNat ∨
        mem offset = ipoptTs) :
      Understood mem totalLen offset

section Parser

variable {mem : Nat → UInt8} {fuel totalLen offset : Nat} {tstampValue : BitVec 64}
  {out : OptionsOutcome}

/-- By induction on the fuel: an option lies inside the length that is left. -/
theorem reads_lt
    (hrun : parseOptions mem fuel totalLen offset tstampValue = some out) :
    ∀ i ∈ out.reads, i < offset + totalLen := by
  induction fuel generalizing totalLen offset tstampValue out with
  | zero =>
      cases hrun
  | succ fuel ih =>
      rw [parseOptions, optionHdrSize, tstampOptionSize] at hrun
      split at hrun
      next =>
        obtain rfl := Option.some.inj hrun
        simp
      split at hrun
      next =>
        obtain rfl := Option.some.inj hrun
        simp [corrupted]
      next hroom =>
        simp only at hrun
        split at hrun
        next =>
          obtain rfl := Option.some.inj hrun
          simp only [corrupted, List.mem_singleton, forall_eq]
          omega
        next hinside =>
          split at hrun
          next =>
            split at hrun
            next =>
              obtain rfl := Option.some.inj hrun
              simp only [corrupted, List.mem_cons, List.not_mem_nil, or_false, forall_eq_or_imp,
                forall_eq]
              omega
            next hlong =>
              obtain ⟨rest, hrest, rfl⟩ := Option.map_eq_some_iff.1 hrun
              intro i hi
              simp only [OptionsOutcome.skip, List.mem_append, List.mem_cons, List.not_mem_nil,
                or_false, List.mem_range'_1] at hi
              rcases hi with ((hi | hi) | hi) | hi
              · omega
              · omega
              · omega
              · have := ih hrest i hi
                omega
          next =>
            obtain ⟨rest, hrest, rfl⟩ := Option.map_eq_some_iff.1 hrun
            intro i hi
            simp only [OptionsOutcome.skip, List.mem_append, List.mem_cons, List.not_mem_nil,
              or_false] at hi
            rcases hi with (hi | hi) | hi
            · omega
            · omega
            · have := ih hrest i hi
              omega

/-- With a length byte of 0 the loop stays where it is. -/
theorem parseOptions_zero_length
    (hroom : optionHdrSize ≤ totalLen)
    (hcode : mem offset ≠ ipoptTs)
    (hlen : mem (offset + 1) = 0)
    (fuel : Nat) :
    parseOptions mem fuel totalLen offset tstampValue = none := by
  rw [optionHdrSize] at hroom
  induction fuel with
  | zero =>
      rfl
  | succ fuel ih =>
      rw [parseOptions, optionHdrSize, if_neg (by omega), if_neg (by omega)]
      simp only [hlen, UInt8.toNat_zero, Nat.not_lt_zero, if_false, hcode, Nat.sub_zero,
        Nat.add_zero, ih, Option.map_none]

/-- What one round of the loop does with an option that is inside and no short timestamp. -/
theorem parseOptions_step
    (hroom : optionHdrSize ≤ totalLen)
    (hinside : (mem (offset + 1)).toNat ≤ totalLen)
    (hts : mem offset = ipoptTs → tstampOptionSize ≤ (mem (offset + 1)).toNat) :
    ∃ tstampValue' reads, ∀ fuel, parseOptions mem (fuel + 1) totalLen offset tstampValue =
      (parseOptions mem fuel (totalLen - (mem (offset + 1)).toNat)
        (offset + (mem (offset + 1)).toNat) tstampValue').map
          (·.skip offset (mem (offset + 1)).toNat reads) := by
  have hroom' : ¬ totalLen < optionHdrSize := Nat.not_lt.2 hroom
  have hsome : ¬ totalLen = 0 := by
    rintro rfl
    exact hroom' (by decide)
  by_cases hcode : mem offset = ipoptTs
  · refine ⟨ipv4ParseOptionTimestamp mem offset,
      [offset + 1, offset] ++ List.range' (offset + 4) 8, fun fuel => ?_⟩
    rw [parseOptions, if_neg hsome, if_neg hroom']
    simp only [if_neg (Nat.not_lt.2 hinside), if_pos hcode, if_neg (Nat.not_lt.2 (hts hcode))]
  · refine ⟨tstampValue, [offset + 1, offset], fun fuel => ?_⟩
    rw [parseOptions, if_neg hsome, if_neg hroom']
    simp only [if_neg (Nat.not_lt.2 hinside), if_neg hcode]

/-- What one round of the loop does with any other option. -/
theorem parseOptions_refuse
    (hsome : 0 < totalLen)
    (hwhy : totalLen < optionHdrSize ∨ totalLen < (mem (offset + 1)).toNat ∨
      mem offset = ipoptTs ∧ (mem (offset + 1)).toNat < tstampOptionSize) :
    ∃ reads, parseOptions mem (fuel + 1) totalLen offset tstampValue =
      some (corrupted tstampValue reads) := by
  rw [parseOptions, if_neg (by omega)]
  by_cases hshort : totalLen < optionHdrSize
  · exact ⟨_, if_pos hshort⟩
  · rw [if_neg hshort]
    by_cases hpast : totalLen < (mem (offset + 1)).toNat
    · exact ⟨_, if_pos hpast⟩
    · obtain ⟨hcode, hlen⟩ := (hwhy.resolve_left hshort).resolve_left hpast
      simp only [if_neg hpast, if_pos hcode, if_pos hlen]
      exact ⟨_, rfl⟩

theorem standardOptions_skip
    (hcode : mem offset ≠ 0 ∧ mem offset ≠ 1)
    (hlen : LengthOk mem totalLen offset) :
    standardOptions mem totalLen offset =
      ((offset, (mem (offset + 1)).toNat) ::
        (standardOptions mem (totalLen - (mem (offset + 1)).toNat)
          (offset + (mem (offset + 1)).toNat)).1,
        (standardOptions mem (totalLen - (mem (offset + 1)).toNat)
          (offset + (mem (offset + 1)).toNat)).2) := by
  have hroom := hlen.1
  rw [standardOptions, if_neg (by omega), if_neg hcode.1, if_neg hcode.2, if_pos hlen]

theorem standardOptions_nop
    (hsome : 0 < totalLen)
    (hcode : mem offset = 1) :
    standardOptions mem totalLen offset =
      ((offset, 1) :: (standardOptions mem (totalLen - 1) (offset + 1)).1,
        (standardOptions mem (totalLen - 1) (offset + 1)).2) := by
  rw [standardOptions, if_neg (by omega), if_neg (by rw [hcode]; decide), if_pos hcode]

theorem standardOptions_malformed
    (hsome : 0 < totalLen)
    (hcode : mem offset ≠ 0 ∧ mem offset ≠ 1)
    (hlen : ¬ LengthOk mem totalLen offset) :
    standardOptions mem totalLen offset = ([], false) := by
  rw [standardOptions, if_neg (by omega), if_neg hcode.1, if_neg hcode.2, if_neg hlen]

/-- The options that are understood are parsed as the standard says, by induction on them. -/
theorem parseOptions_of_understood
    (hunderstood : Understood mem totalLen offset)
    (tstampValue : BitVec 64) :
    ∃ fuel out, parseOptions mem fuel totalLen offset tstampValue = some out ∧
      (out.skipped, out.accepted) = standardOptions mem totalLen offset := by
  induction hunderstood generalizing tstampValue with
  | done offset =>
      exact ⟨1, ⟨true, 0, tstampValue, [], []⟩, by simp [parseOptions], by simp [standardOptions]⟩
  | @nop totalLen offset hroom hcode hlen hrest ih =>
      have hone : (mem (offset + 1)).toNat = 1 := by
        rw [hlen]
        rfl
      have hsome : 0 < totalLen := lt_of_lt_of_le (by decide) hroom
      have hinside : (mem (offset + 1)).toNat ≤ totalLen := by
        omega
      obtain ⟨tstampValue', reads, hstep⟩ := @parseOptions_step mem totalLen offset tstampValue
        hroom hinside (fun hts => absurd (hcode.symm.trans hts) (by decide))
      obtain ⟨fuel, out, hrun, hstandard⟩ := ih tstampValue'
      rw [hone] at hstep
      refine ⟨fuel + 1, out.skip offset 1 reads, by rw [hstep fuel, hrun, Option.map_some], ?_⟩
      rw [standardOptions_nop hsome hcode, ← hstandard]
      rfl
  | @skip totalLen offset hroom hcode hlen hrest ih =>
      obtain ⟨tstampValue', reads, hstep⟩ := @parseOptions_step mem totalLen offset tstampValue
        hroom hlen.2.2 (fun hts => by
          have hmin := hlen.2.1
          rwa [optionMin, if_pos hts] at hmin)
      obtain ⟨fuel, out, hrun, hstandard⟩ := ih tstampValue'
      refine ⟨fuel + 1, out.skip offset _ reads, by rw [hstep fuel, hrun, Option.map_some], ?_⟩
      rw [standardOptions_skip hcode hlen, ← hstandard]
      rfl
  | @refused totalLen offset hsome hcode hlen hwhy =>
      have hrefuse : totalLen < optionHdrSize ∨ totalLen < (mem (offset + 1)).toNat ∨
          mem offset = ipoptTs ∧ (mem (offset + 1)).toNat < tstampOptionSize := by
        by_contra hnot
        rw [not_or, not_or, not_and, not_lt, not_lt] at hnot
        obtain ⟨hroom, hinside, hlong⟩ := hnot
        have hts := (hwhy.resolve_left (Nat.not_lt.2 hroom)).resolve_left (Nat.not_lt.2 hinside)
        refine hlen ⟨le_trans (by decide) hroom, ?_, hinside⟩
        rw [optionMin, if_pos hts]
        exact Nat.not_lt.1 (hlong hts)
      obtain ⟨reads, hrun⟩ := @parseOptions_refuse mem 0 totalLen offset tstampValue hsome hrefuse
      exact ⟨1, _, hrun, (standardOptions_malformed hsome hcode hlen).symm⟩

/-- What is parsed as the standard says is understood, by induction on the fuel. -/
theorem understood_of_parseOptions
    (hrun : parseOptions mem fuel totalLen offset tstampValue = some out)
    (hstandard : (out.skipped, out.accepted) = standardOptions mem totalLen offset) :
    Understood mem totalLen offset := by
  induction fuel generalizing totalLen offset tstampValue out with
  | zero =>
      cases hrun
  | succ fuel ih =>
      rcases Nat.eq_zero_or_pos totalLen with rfl | hsome
      · exact Understood.done offset
      by_cases hwhy : totalLen < optionHdrSize ∨ totalLen < (mem (offset + 1)).toNat ∨
          mem offset = ipoptTs ∧ (mem (offset + 1)).toNat < tstampOptionSize
      · -- refused: the standard steps over nothing and refuses as well
        obtain ⟨reads, hrefuse⟩ := @parseOptions_refuse mem fuel totalLen offset tstampValue
          hsome hwhy
        rw [hrefuse] at hrun
        obtain rfl := Option.some.inj hrun
        have hzero : mem offset ≠ 0 := by
          intro hcode
          rw [standardOptions, if_neg hsome.ne', if_pos hcode] at hstandard
          cases hstandard
        have hone : mem offset ≠ 1 := by
          intro hcode
          rw [standardOptions_nop hsome hcode] at hstandard
          cases hstandard
        have hlen : ¬ LengthOk mem totalLen offset := by
          intro hlen
          rw [standardOptions_skip ⟨hzero, hone⟩ hlen] at hstandard
          cases hstandard
        exact Understood.refused hsome ⟨hzero, hone⟩ hlen
          (hwhy.imp_right (Or.imp_right And.left))
      · rw [not_or, not_or, not_and, not_lt, not_lt, not_lt] at hwhy
        obtain ⟨hroom, hinside, hlong⟩ := hwhy
        obtain ⟨tstampValue', reads, hstep⟩ := @parseOptions_step mem totalLen offset tstampValue
          hroom hinside hlong
        rw [hstep fuel] at hrun
        obtain ⟨rest, hrest, rfl⟩ := Option.map_eq_some_iff.1 hrun
        by_cases hzero : mem offset = 0
        · rw [standardOptions, if_neg hsome.ne', if_pos hzero] at hstandard
          cases hstandard
        by_cases hone : mem offset = 1
        · rw [standardOptions_nop hsome hone] at hstandard
          obtain ⟨hskipped, haccepted⟩ := Prod.mk.inj hstandard
          obtain ⟨hhead, htail⟩ := List.cons.inj hskipped
          have hlen := (Prod.mk.inj hhead).2
          rw [hlen] at hrest
          exact Understood.nop hroom hone (UInt8.toNat_inj.1 hlen)
            (ih hrest (Prod.ext htail haccepted))
        · by_cases hlen : LengthOk mem totalLen offset
          · rw [standardOptions_skip ⟨hzero, hone⟩ hlen] at hstandard
            obtain ⟨hskipped, haccepted⟩ := Prod.mk.inj hstandard
            obtain ⟨-, htail⟩ := List.cons.inj hskipped
            exact Understood.skip hroom ⟨hzero, hone⟩ hlen (ih hrest (Prod.ext htail haccepted))
          · rw [standardOptions_malformed hsome ⟨hzero, hone⟩ hlen] at hstandard
            cases (Prod.mk.inj hstandard).1

end Parser

section Headers

variable {mem : Nat → UInt8}

/-- The options of a header are parsed as the standard says if and only if they are understood. -/
theorem parsesRight_iff
    (mem : Nat → UInt8) :
    ParsesRight mem ↔ Understood mem (ipHdrLen mem - stdIpv4HdrLen) stdIpv4HdrLen := by
  constructor
  · rintro ⟨fuel, out, hrun, -, hstandard⟩
    rw [receiveOptions] at hrun
    split at hrun
    next =>
      exact understood_of_parseOptions hrun hstandard
    next hshort =>
      rw [Nat.sub_eq_zero_of_le (Nat.not_lt.1 hshort)]
      exact Understood.done _
  · intro hunderstood
    rcases Nat.lt_or_ge stdIpv4HdrLen (ipHdrLen mem) with hlong | hshort
    · obtain ⟨fuel, out, hrun, hstandard⟩ := parseOptions_of_understood hunderstood 0
      refine ⟨fuel, out, by rw [receiveOptions, if_pos hlong, ipv4ParseOptions, hrun], ?_,
        hstandard⟩
      intro i hi
      have hlt := reads_lt hrun i hi
      omega
    · refine ⟨0, ⟨true, 0, 0, [], []⟩, if_neg (Nat.not_lt.2 hshort), by simp, ?_⟩
      rw [Nat.sub_eq_zero_of_le hshort, standardOptions, if_pos rfl]

/-- A header of 24 bytes with the options 130, 0, 0, 0. -/
def zeroLengthOption (offset : Nat) : UInt8 :=
  if offset = 0 then 0x46 else if offset = 20 then 130 else 0

/-- An option with length 0 keeps the parser in its loop. -/
theorem zeroLengthOption_endless :
    ¬ ParsesRight zeroLengthOption := by
  rintro ⟨fuel, out, hrun, -⟩
  have hendless : receiveOptions zeroLengthOption fuel = none :=
    parseOptions_zero_length (by decide) (by decide) (by decide) fuel
  rw [hrun] at hendless
  cases hendless

end Headers

end Ipv4Options
end Warp17
