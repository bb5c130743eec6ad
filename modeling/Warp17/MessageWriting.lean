import Mathlib.Tactic
import Warp17.MbufChains

/-!
# Writing text into mbufs

`http_write_str` (src/src/appl/tpg_test_http_1_1_app.c) appends a formatted string to a chain of
mbufs and allocates more of them where there is no room.  `rte_pktmbuf_append` writes into the last
mbuf of the chain, but the loop measures the room of the first one.

The allocations are numbered; a pattern of allocations says which of them succeed and with what
address.  The chain operations are those that the DPDK documents for its mbufs, with the limit on
segments.

**Results**
- `writeLoop_ok`: a write that succeeds has appended the string.
- `roomFor_of_writeLoop`, `writeLoop_of_roomFor`: when a write succeeds.
- `writesAll_iff`: the chains and strings for which the function does what it is for.
-/

namespace Warp17
namespace MessageWriting

open SequenceComparison MbufChains

/-! ## Mbufs with room -/

/-- An mbuf and the room behind its data. -/
structure PoolMbuf extends Mbuf where
  tailroom : Nat
deriving DecidableEq, Repr

/-- A packet pool: the room of a new mbuf. -/
structure Pool where
  room : Nat
  pos : 0 < room

/-- Which allocations succeed, and the addresses they return. -/
abbrev Allocs := Nat → Option Nat

def pktMbufAlloc (pool : Pool) (allocs : Allocs) (k : Nat) : Option PoolMbuf :=
  (allocs k).map fun id => ⟨⟨id, [], 0, 1⟩, pool.room⟩

/-- The bytes of a chain. -/
def poolBytes (c : List PoolMbuf) : List UInt8 :=
  c.flatMap fun m => m.data

/-- `rte_pktmbuf_tailroom` of the first mbuf. -/
def firstRoom : List PoolMbuf → Nat
  | [] => 0
  | m :: _ => m.tailroom

/-- The room of the last mbuf. -/
def lastRoom (c : List PoolMbuf) : Nat :=
  (c.getLast?.map PoolMbuf.tailroom).getD 0

def headNbSegs : List PoolMbuf → Nat
  | [] => 0
  | m :: _ => m.nbSegs.toNat

def headPktLen : List PoolMbuf → U32
  | [] => 0
  | m :: _ => m.pktLen

/-- Bytes into the last mbuf, as long as it has the room. -/
def appendLast : List PoolMbuf → List UInt8 → Option (List PoolMbuf)
  | [], _ => none
  | [m], bytes =>
      if m.tailroom < bytes.length then none
      else some [{ m with data := m.data ++ bytes, tailroom := m.tailroom - bytes.length }]
  | m :: n :: rest, bytes => (appendLast (n :: rest) bytes).map (m :: ·)

/-- More of the packet in front of the chain's mbufs. -/
def addPktLen (len : Nat) : List PoolMbuf → List PoolMbuf
  | [] => []
  | m :: rest => { m with pktLen := m.pktLen + BitVec.ofNat 32 len } :: rest

/-- `rte_pktmbuf_append` and the copy of the bytes; `none` is its null result. -/
def rtePktmbufAppend (c : List PoolMbuf) (bytes : List UInt8) : Option (List PoolMbuf) :=
  (appendLast c bytes).map (addPktLen bytes.length)

/-- `RTE_MBUF_MAX_NB_SEGS` -/
def rteMbufMaxNbSegs : Nat :=
  65535

/-- `rte_pktmbuf_chain` with one new mbuf; `none` is `-EOVERFLOW`. -/
def rtePktmbufChain (c : List PoolMbuf) (tail : PoolMbuf) : Option (List PoolMbuf) :=
  match c with
  | [] => none
  | head :: rest =>
      if rteMbufMaxNbSegs < head.nbSegs.toNat + tail.nbSegs.toNat then none
      else some ({ head with
        nbSegs := head.nbSegs + tail.nbSegs
        pktLen := head.pktLen + tail.pktLen } ::
          (rest ++ [{ tail with pktLen := BitVec.ofNat 32 tail.data.length }]))

/-! ## The write -/

inductive WriteError
  | einval
  | enomem
  | eoverflow
deriving DecidableEq, Repr

/-- The end of a write: the chain and the number of the next allocation, or an error, or the copy
through a null pointer. -/
inductive Written
  | ok (c : List PoolMbuf) (next : Nat)
  | error (err : WriteError)
  | crash
deriving DecidableEq, Repr

theorem headNbSegs_addPktLen
    (len : Nat) (c : List PoolMbuf) :
    headNbSegs (addPktLen len c) = headNbSegs c := by
  cases c <;> rfl

theorem appendLast_cons
    {m : PoolMbuf} {rest c' : List PoolMbuf} {bytes : List UInt8}
    (happend : appendLast (m :: rest) bytes = some c') :
    ∃ m' rest', c' = m' :: rest' ∧ m'.nbSegs = m.nbSegs ∧ m'.pktLen = m.pktLen := by
  cases rest with
  | nil =>
      rw [appendLast] at happend
      split at happend
      next =>
        cases happend
      next =>
        obtain rfl := Option.some.inj happend
        exact ⟨_, _, rfl, rfl, rfl⟩
  | cons n rest =>
      obtain ⟨tail, -, rfl⟩ := Option.map_eq_some_iff.1 happend
      exact ⟨_, _, rfl, rfl, rfl⟩

theorem headNbSegs_append
    {c c' : List PoolMbuf} {bytes : List UInt8}
    (happend : rtePktmbufAppend c bytes = some c') :
    headNbSegs c' = headNbSegs c := by
  obtain ⟨d, hlast, rfl⟩ := Option.map_eq_some_iff.1 happend
  rw [headNbSegs_addPktLen]
  cases c with
  | nil =>
      cases hlast
  | cons m rest =>
      obtain ⟨m', rest', rfl, hsegs, -⟩ := appendLast_cons hlast
      rw [headNbSegs, headNbSegs, hsegs]

theorem headNbSegs_chain
    {c c' : List PoolMbuf} {tail : PoolMbuf}
    (hone : tail.nbSegs = 1)
    (hchain : rtePktmbufChain c tail = some c') :
    headNbSegs c' = headNbSegs c + 1 ∧ headNbSegs c + 1 ≤ rteMbufMaxNbSegs := by
  cases c with
  | nil =>
      cases hchain
  | cons head rest =>
      rw [rtePktmbufChain, hone] at hchain
      split at hchain
      next =>
        cases hchain
      next hfew =>
        obtain rfl := Option.some.inj hchain
        rw [show (1 : BitVec 16).toNat = 1 from rfl, rteMbufMaxNbSegs, not_lt] at hfew
        simp only [headNbSegs, BitVec.toNat_add, rteMbufMaxNbSegs]
        rw [show (1 : BitVec 16).toNat = 1 from rfl]
        omega

theorem pktMbufAlloc_nbSegs
    {pool : Pool} {allocs : Allocs} {k : Nat} {m : PoolMbuf}
    (halloc : pktMbufAlloc pool allocs k = some m) :
    m.nbSegs = 1 := by
  obtain ⟨id, -, rfl⟩ := Option.map_eq_some_iff.1 halloc
  rfl

/-- The end of a round that does not write the last bytes. -/
inductive Grown
  | grown (c : List PoolMbuf)
  | error (err : WriteError)
  | crash
deriving DecidableEq, Repr

/-- What fits is written, and a new mbuf is put behind the chain. -/
def growChain (pool : Pool) (allocs : Allocs) (k : Nat) (c : List PoolMbuf) (part : List UInt8) :
    Grown :=
  match rtePktmbufAppend c part with
  | none => .crash
  | some c =>
      match pktMbufAlloc pool allocs k with
      | none => .error .enomem
      | some newMbuf =>
          match rtePktmbufChain c newMbuf with
          | none => .error .eoverflow
          | some c => .grown c

theorem growChain_grown
    {pool : Pool} {allocs : Allocs} {k : Nat} {c c' : List PoolMbuf} {part : List UInt8}
    (hgrow : growChain pool allocs k c part = .grown c') :
    ∃ filled newMbuf, rtePktmbufAppend c part = some filled ∧
      pktMbufAlloc pool allocs k = some newMbuf ∧
      rtePktmbufChain filled newMbuf = some c' := by
  rw [growChain] at hgrow
  split at hgrow
  next => cases hgrow
  next filled happend =>
    split at hgrow
    next => cases hgrow
    next newMbuf halloc =>
      split at hgrow
      next => cases hgrow
      next chained hchain =>
        obtain rfl := Grown.grown.inj hgrow
        exact ⟨filled, newMbuf, happend, halloc, hchain⟩

theorem headNbSegs_grown
    {pool : Pool} {allocs : Allocs} {k : Nat} {c c' : List PoolMbuf} {part : List UInt8}
    (hgrow : growChain pool allocs k c part = .grown c') :
    headNbSegs c' = headNbSegs c + 1 ∧ headNbSegs c + 1 ≤ rteMbufMaxNbSegs := by
  obtain ⟨filled, newMbuf, happend, halloc, hchain⟩ := growChain_grown hgrow
  have hsegs := headNbSegs_chain (pktMbufAlloc_nbSegs halloc) hchain
  rwa [headNbSegs_append happend] at hsegs

/-- The loop; every round that goes on adds a segment. -/
def writeLoop (pool : Pool) (allocs : Allocs) (left : List UInt8) (k : Nat) (c : List PoolMbuf) :
    Written :=
  if left = [] then .ok c k
  else if left.length ≤ firstRoom c then
    match rtePktmbufAppend c left with
    | none => .crash
    | some c => .ok c k
  else
    match hgrow : growChain pool allocs k c (left.take (firstRoom c)) with
    | .crash => .crash
    | .error err => .error err
    | .grown c' => writeLoop pool allocs (left.drop (firstRoom c)) (k + 1) c'
termination_by rteMbufMaxNbSegs - headNbSegs c
decreasing_by
  have hsegs := headNbSegs_grown hgrow
  omega

/-- The string is what `vsnprintf` formats; it returns the length as an `int`. -/
def httpWriteStr (pool : Pool) (allocs : Allocs) (k : Nat) (c : List PoolMbuf)
    (str : List UInt8) : Written :=
  if c = [] then .error .einval
  else if 2 ^ 31 ≤ str.length + 1 then .error .einval
  else writeLoop pool allocs str k c

/-! ## What the operations do -/

section Operations

variable {pool : Pool} {allocs : Allocs} {c c' : List PoolMbuf} {bytes : List UInt8} {k : Nat}

/-- The counters of the first mbuf describe the chain. -/
structure Counted (c : List PoolMbuf) : Prop where
  nonempty : c ≠ []
  nbSegs : headNbSegs c = c.length
  pktLen : headPktLen c = BitVec.ofNat 32 (poolBytes c).length

theorem poolBytes_cons
    (m : PoolMbuf) (c : List PoolMbuf) :
    poolBytes (m :: c) = m.data ++ poolBytes c := by
  rfl

theorem poolBytes_addPktLen
    (len : Nat) (c : List PoolMbuf) :
    poolBytes (addPktLen len c) = poolBytes c := by
  cases c <;> rfl

theorem length_addPktLen
    (len : Nat) (c : List PoolMbuf) :
    (addPktLen len c).length = c.length := by
  cases c <;> rfl

theorem firstRoom_addPktLen
    (len : Nat) (c : List PoolMbuf) :
    firstRoom (addPktLen len c) = firstRoom c := by
  cases c <;> rfl

/-- By induction on the chain. -/
theorem appendLast_spec
    (hroom : bytes.length ≤ lastRoom c)
    (hne : c ≠ []) :
    ∃ c', appendLast c bytes = some c' ∧ poolBytes c' = poolBytes c ++ bytes ∧
      c'.length = c.length ∧
      firstRoom c' = if c.length = 1 then firstRoom c - bytes.length else firstRoom c := by
  induction c with
  | nil =>
      exact absurd rfl hne
  | cons m rest ih =>
      cases rest with
      | nil =>
          have hfits : ¬ m.tailroom < bytes.length := by
            simpa [lastRoom] using hroom
          refine ⟨[{ m with
            data := m.data ++ bytes, tailroom := m.tailroom - bytes.length }],
            by rw [appendLast, if_neg hfits], ?_, rfl, ?_⟩
          · simp [poolBytes]
          · simp [firstRoom]
      | cons n rest =>
          obtain ⟨tail, htail, hbytes, hlength, -⟩ := ih (by simpa [lastRoom] using hroom)
            (List.cons_ne_nil n rest)
          refine ⟨m :: tail, by rw [appendLast, htail, Option.map_some], ?_, ?_, ?_⟩
          · rw [poolBytes_cons, hbytes, poolBytes_cons m, List.append_assoc]
          · rw [List.length_cons, hlength]
            rfl
          · simp [firstRoom]

theorem appendLast_none
    (hroom : lastRoom c < bytes.length) :
    appendLast c bytes = none := by
  induction c with
  | nil =>
      rfl
  | cons m rest ih =>
      cases rest with
      | nil =>
          rw [appendLast, if_pos (by simpa [lastRoom] using hroom)]
      | cons n rest =>
          rw [appendLast, ih (by simpa [lastRoom] using hroom), Option.map_none]

theorem rtePktmbufAppend_none
    (hroom : lastRoom c < bytes.length) :
    rtePktmbufAppend c bytes = none := by
  rw [rtePktmbufAppend, appendLast_none hroom, Option.map_none]

/-- Bytes that fit into the last mbuf are appended. -/
theorem rtePktmbufAppend_spec
    (hc : Counted c)
    (hroom : bytes.length ≤ lastRoom c) :
    ∃ c', rtePktmbufAppend c bytes = some c' ∧ Counted c' ∧
      poolBytes c' = poolBytes c ++ bytes ∧ c'.length = c.length ∧
      firstRoom c' = if c.length = 1 then firstRoom c - bytes.length else firstRoom c := by
  obtain ⟨d, hlast, hbytes, hlength, hfirst⟩ := appendLast_spec hroom hc.nonempty
  obtain ⟨m, rest, rfl⟩ := List.exists_cons_of_ne_nil hc.nonempty
  obtain ⟨m', rest', rfl, hsegs, hpkt⟩ := appendLast_cons hlast
  have hnbSegs := hc.nbSegs
  have hpktLen := hc.pktLen
  rw [headNbSegs] at hnbSegs
  rw [headPktLen] at hpktLen
  refine ⟨addPktLen bytes.length (m' :: rest'), by rw [rtePktmbufAppend, hlast, Option.map_some],
    ⟨List.cons_ne_nil _ _, ?_, ?_⟩, ?_, ?_, ?_⟩
  · rw [headNbSegs_addPktLen, headNbSegs, hsegs, hnbSegs, length_addPktLen, hlength]
  · rw [poolBytes_addPktLen, hbytes, List.length_append, BitVec.ofNat_add, ← hpktLen, ← hpkt]
    rfl
  · rw [poolBytes_addPktLen, hbytes]
  · rw [length_addPktLen, hlength]
  · rw [firstRoom_addPktLen, hfirst]

theorem lastRoom_concat
    (c : List PoolMbuf) (m : PoolMbuf) :
    lastRoom (c ++ [m]) = m.tailroom := by
  rw [lastRoom, List.getLast?_concat]
  rfl

/-- A new mbuf behind a chain that has fewer than the most segments. -/
theorem rtePktmbufChain_spec
    (hc : Counted c)
    (hfew : c.length + 1 ≤ rteMbufMaxNbSegs)
    (id : Nat) :
    ∃ c', rtePktmbufChain c ⟨⟨id, [], 0, 1⟩, pool.room⟩ = some c' ∧ Counted c' ∧
      poolBytes c' = poolBytes c ∧ c'.length = c.length + 1 ∧ firstRoom c' = firstRoom c ∧
      lastRoom c' = pool.room := by
  obtain ⟨m, rest, rfl⟩ := List.exists_cons_of_ne_nil hc.nonempty
  have hnbSegs := hc.nbSegs
  have hpktLen := hc.pktLen
  rw [headNbSegs] at hnbSegs
  rw [headPktLen] at hpktLen
  have hone : (1 : BitVec 16).toNat = 1 := rfl
  have hover : ¬ rteMbufMaxNbSegs < m.nbSegs.toNat + (1 : BitVec 16).toNat := by
    rw [hnbSegs, hone]
    omega
  have hbytes : poolBytes (rest ++ [⟨⟨id, [], BitVec.ofNat 32 0, 1⟩, pool.room⟩]) =
      poolBytes rest := by
    simp [poolBytes]
  rw [rteMbufMaxNbSegs] at hfew
  refine ⟨_, if_neg hover, ⟨List.cons_ne_nil _ _, ?_, ?_⟩, ?_, ?_, rfl, ?_⟩
  · rw [headNbSegs, BitVec.toNat_add, hnbSegs, hone]
    simp only [List.length_cons, List.length_append, List.length_nil] at hfew ⊢
    omega
  · rw [headPktLen, hpktLen, poolBytes_cons, poolBytes_cons, List.length_nil, hbytes]
    exact BitVec.add_zero _
  · rw [poolBytes_cons, poolBytes_cons, List.length_nil, hbytes]
  · rw [List.length_cons, List.length_append, List.length_cons, List.length_cons, List.length_nil]
  · exact lastRoom_concat (_ :: rest) _

/-- What a round that goes on needed, and what it leaves. -/
theorem growChain_spec
    (hc : Counted c)
    (hgrow : growChain pool allocs k c bytes = .grown c') :
    (bytes.length ≤ lastRoom c ∧ (allocs k).isSome = true ∧ c.length + 1 ≤ rteMbufMaxNbSegs) ∧
      Counted c' ∧ poolBytes c' = poolBytes c ++ bytes ∧ c'.length = c.length + 1 ∧
      firstRoom c' = (if c.length = 1 then firstRoom c - bytes.length else firstRoom c) ∧
      lastRoom c' = pool.room := by
  obtain ⟨-, hfew⟩ := headNbSegs_grown hgrow
  rw [hc.nbSegs] at hfew
  obtain ⟨filled, newMbuf, happend, halloc, hchain⟩ := growChain_grown hgrow
  have hroom : bytes.length ≤ lastRoom c := by
    by_contra hfull
    rw [rtePktmbufAppend_none (Nat.not_le.1 hfull)] at happend
    cases happend
  obtain ⟨filled', happend', hfilled, hbytes, hlength, hfirst⟩ := rtePktmbufAppend_spec hc hroom
  rw [happend] at happend'
  obtain rfl := Option.some.inj happend'
  obtain ⟨id, hid, rfl⟩ := Option.map_eq_some_iff.1 halloc
  obtain ⟨chained, hchain', hchained, hbytes', hlength', hfirst', hlast⟩ :=
    @rtePktmbufChain_spec pool filled hfilled (by rw [hlength]; exact hfew) id
  rw [hchain] at hchain'
  obtain rfl := Option.some.inj hchain'
  exact ⟨⟨hroom, by rw [hid]; rfl, hfew⟩, hchained, by rw [hbytes', hbytes],
    by rw [hlength', hlength], by rw [hfirst', hfirst], hlast⟩

/-- With room for the bytes a round goes on, or there is no mbuf, or the chain is too long. -/
theorem growChain_cases
    (hc : Counted c)
    (hroom : bytes.length ≤ lastRoom c) :
    (∃ c', growChain pool allocs k c bytes = .grown c') ∨
      (allocs k = none ∧ growChain pool allocs k c bytes = .error .enomem) ∨
      (rteMbufMaxNbSegs < c.length + 1 ∧
        growChain pool allocs k c bytes = .error .eoverflow) := by
  obtain ⟨filled, happend, hfilled, -, hlength, -⟩ := rtePktmbufAppend_spec hc hroom
  rw [growChain, happend]
  cases hid : allocs k with
  | none =>
      right
      left
      simp only [pktMbufAlloc, hid, Option.map_none]
      exact ⟨trivial, trivial⟩
  | some id =>
      simp only [pktMbufAlloc, hid, Option.map_some]
      rcases Nat.lt_or_ge rteMbufMaxNbSegs (c.length + 1) with hover | hfew
      · right
        right
        obtain ⟨m, rest, rfl⟩ := List.exists_cons_of_ne_nil hfilled.nonempty
        have hsegs : rteMbufMaxNbSegs < m.nbSegs.toNat + (1 : BitVec 16).toNat := by
          have hcount := hfilled.nbSegs
          rw [headNbSegs, hlength] at hcount
          rw [hcount]
          exact hover
        have hnone : rtePktmbufChain (m :: rest) ⟨⟨id, [], 0, 1⟩, pool.room⟩ = none := if_pos hsegs
        rw [hnone]
        exact ⟨hover, rfl⟩
      · left
        obtain ⟨chained, hchain, -⟩ :=
          @rtePktmbufChain_spec pool filled hfilled (by rw [hlength]; exact hfew) id
        rw [hchain]
        exact ⟨chained, rfl⟩

end Operations

/-! ## When a write succeeds -/

section Writing

variable {pool : Pool} {allocs : Allocs} {c c' : List PoolMbuf} {left : List UInt8} {k k' : Nat}

/-- The chain takes `n` bytes: they fit into the first and into the last mbuf, or the first of
several mbufs has room, not more than the last one, and is never filled. -/
def RoomFor (c : List PoolMbuf) (n : Nat) : Prop :=
  n = 0 ∨ (n ≤ firstRoom c ∧ n ≤ lastRoom c) ∨
    (1 < c.length ∧ 0 < firstRoom c ∧ firstRoom c ≤ lastRoom c ∧
      c.length + (n - 1) / firstRoom c ≤ rteMbufMaxNbSegs)

instance (c : List PoolMbuf) (n : Nat) : Decidable (RoomFor c n) :=
  inferInstanceAs (Decidable (_ ∨ _ ∨ _))

/-- The string was appended, and the counters of the chain are right. -/
structure Appended (c : List PoolMbuf) (str : List UInt8) (c' : List PoolMbuf) : Prop where
  counted : Counted c'
  bytes : poolBytes c' = poolBytes c ++ str

/-- A write that succeeds has appended the string and made no allocation that failed. -/
theorem writeLoop_ok
    (hc : Counted c)
    (hrun : writeLoop pool allocs left k c = .ok c' k') :
    Appended c left c' ∧ ∀ j, k ≤ j → j < k' → (allocs j).isSome = true := by
  fun_induction writeLoop pool allocs left k c with
  | case1 k c =>
      obtain ⟨rfl, rfl⟩ := Written.ok.inj hrun
      exact ⟨⟨hc, by rw [List.append_nil]⟩, fun j hle hlt => by omega⟩
  | case2 left k c hne hfirst happend =>
      cases hrun
  | case3 left k c hne hfirst filled happend =>
      obtain ⟨rfl, rfl⟩ := Written.ok.inj hrun
      have hroom : left.length ≤ lastRoom c := by
        by_contra hfull
        rw [rtePktmbufAppend_none (Nat.not_le.1 hfull)] at happend
        cases happend
      obtain ⟨filled', happend', hfilled, hbytes, -⟩ := rtePktmbufAppend_spec hc hroom
      rw [happend] at happend'
      obtain rfl := Option.some.inj happend'
      exact ⟨⟨hfilled, hbytes⟩, fun j hle hlt => by omega⟩
  | case4 left k c hne hfirst hgrow =>
      cases hrun
  | case5 left k c hne hfirst err hgrow =>
      cases hrun
  | case6 left k c hne hfirst grown hgrow ih =>
      obtain ⟨⟨-, hsome, -⟩, hgrown, hbytes, -⟩ := growChain_spec hc hgrow
      obtain ⟨⟨hcounted, hmore⟩, hallocs⟩ := ih hgrown hrun
      refine ⟨⟨hcounted, ?_⟩, fun j hle hlt => ?_⟩
      · rw [hmore, hbytes, List.append_assoc, List.take_append_drop]
      · rcases Nat.eq_or_lt_of_le hle with rfl | hgt
        · exact hsome
        · exact hallocs j hgt hlt

/-- A round that writes a full part leaves a chain that takes the rest if and only if the chain
took all of it. -/
theorem roomFor_grown
    {n : Nat}
    (hmore : firstRoom c < n)
    (hroom : firstRoom c ≤ lastRoom c)
    (hfew : c.length + 1 ≤ rteMbufMaxNbSegs)
    (hpool : firstRoom c ≤ pool.room)
    (hlength : c'.length = c.length + 1)
    (hfirst : firstRoom c' = if c.length = 1 then 0 else firstRoom c)
    (hlast : lastRoom c' = pool.room)
    (hpos : 0 < c.length) :
    RoomFor c' (n - firstRoom c) ↔ RoomFor c n := by
  rw [RoomFor, RoomFor, hfirst, hlast, hlength]
  by_cases hone : c.length = 1
  · rw [if_pos hone]
    omega
  · rw [if_neg hone]
    rcases Nat.eq_zero_or_pos (firstRoom c) with hzero | hsome
    · omega
    · have hdiv : (n - 1) / firstRoom c = (n - firstRoom c - 1) / firstRoom c + 1 := by
        rw [Nat.div_eq_sub_div hsome (by omega), Nat.sub_right_comm]
      rw [hdiv]
      constructor
      · rintro (hnone | ⟨hshort, -⟩ | ⟨-, -, -, hsegs⟩)
        · omega
        · have hzero : (n - firstRoom c - 1) / firstRoom c = 0 :=
            Nat.div_eq_of_lt (by omega)
          omega
        · omega
      · rintro (hnone | ⟨hshort, -⟩ | ⟨-, -, -, hsegs⟩)
        · omega
        · omega
        · omega

/-- The first room after a round. -/
theorem firstRoom_grown
    (hmore : firstRoom c < left.length)
    (hc : Counted c)
    (hgrow : growChain pool allocs k c (left.take (firstRoom c)) = .grown c') :
    firstRoom c' = if c.length = 1 then 0 else firstRoom c := by
  obtain ⟨-, -, -, -, hfirst, -⟩ := growChain_spec hc hgrow
  rw [hfirst, List.length_take, Nat.min_eq_left hmore.le, Nat.sub_self]

/-- By induction on the rounds: a write that succeeds found the room. -/
theorem roomFor_of_writeLoop
    (hc : Counted c)
    (hpool : firstRoom c ≤ pool.room)
    (hrun : writeLoop pool allocs left k c = .ok c' k') :
    RoomFor c left.length := by
  fun_induction writeLoop pool allocs left k c with
  | case1 k c =>
      exact Or.inl rfl
  | case2 left k c hne hfirst happend =>
      cases hrun
  | case3 left k c hne hfirst filled happend =>
      refine Or.inr (Or.inl ⟨hfirst, ?_⟩)
      by_contra hfull
      rw [rtePktmbufAppend_none (Nat.not_le.1 hfull)] at happend
      cases happend
  | case4 left k c hne hfirst hgrow =>
      cases hrun
  | case5 left k c hne hfirst err hgrow =>
      cases hrun
  | case6 left k c hne hfirst grown hgrow ih =>
      rw [not_le] at hfirst
      obtain ⟨⟨hroom, -, hfew⟩, hgrown, -, hlength, -, hlast⟩ := growChain_spec hc hgrow
      have hfirst' := firstRoom_grown hfirst hc hgrow
      rw [List.length_take, Nat.min_eq_left hfirst.le] at hroom
      have hrest := ih hgrown (by rw [hfirst']; split <;> omega) hrun
      rw [List.length_drop] at hrest
      exact (roomFor_grown hfirst hroom hfew hpool hlength hfirst' hlast
        (List.length_pos_iff.2 hc.nonempty)).1 hrest

theorem RoomFor.more
    {n : Nat}
    (hroom : RoomFor c n)
    (hmore : firstRoom c < n) :
    firstRoom c ≤ lastRoom c ∧ c.length + 1 ≤ rteMbufMaxNbSegs := by
  rcases hroom with hzero | ⟨hshort, -⟩ | ⟨-, hpos, hle, hsegs⟩
  · omega
  · omega
  · have hone : 0 < (n - 1) / firstRoom c := Nat.div_pos (by omega) hpos
    exact ⟨hle, by omega⟩

/-- By induction on the rounds: with the room a write succeeds, or an allocation fails. -/
theorem writeLoop_of_roomFor
    (hc : Counted c)
    (hpool : firstRoom c ≤ pool.room)
    (hroom : RoomFor c left.length) :
    (∃ c' k', writeLoop pool allocs left k c = .ok c' k') ∨
      ((∃ j, allocs j = none) ∧ writeLoop pool allocs left k c = .error .enomem) := by
  fun_induction writeLoop pool allocs left k c with
  | case1 k c =>
      exact Or.inl ⟨c, k, rfl⟩
  | case2 left k c hne hfirst happend =>
      exfalso
      have hlast : left.length ≤ lastRoom c := by
        rcases hroom with hzero | ⟨-, hlast⟩ | ⟨-, -, hle, -⟩
        · omega
        · exact hlast
        · omega
      obtain ⟨filled, hsome, -⟩ := rtePktmbufAppend_spec hc hlast
      rw [happend] at hsome
      cases hsome
  | case3 left k c hne hfirst filled happend =>
      exact Or.inl ⟨filled, k, rfl⟩
  | case4 left k c hne hfirst hgrow =>
      exfalso
      rw [not_le] at hfirst
      obtain ⟨hlast, hfew⟩ := hroom.more hfirst
      rcases @growChain_cases pool allocs c (left.take (firstRoom c)) k hc
        (by rw [List.length_take]; omega) with ⟨grown, h⟩ | ⟨-, h⟩ | ⟨-, h⟩
      all_goals
        rw [hgrow] at h
        cases h
  | case5 left k c hne hfirst err hgrow =>
      rw [not_le] at hfirst
      obtain ⟨hlast, hfew⟩ := hroom.more hfirst
      rcases @growChain_cases pool allocs c (left.take (firstRoom c)) k hc
        (by rw [List.length_take]; omega) with ⟨grown, h⟩ | ⟨hnone, h⟩ | ⟨hover, -⟩
      · rw [hgrow] at h
        cases h
      · rw [hgrow] at h
        obtain rfl := Grown.error.inj h
        exact Or.inr ⟨⟨k, hnone⟩, rfl⟩
      · omega
  | case6 left k c hne hfirst grown hgrow ih =>
      rw [not_le] at hfirst
      obtain ⟨⟨hlast, -, hfew⟩, hgrown, -, hlength, -, hlast'⟩ := growChain_spec hc hgrow
      have hfirst' := firstRoom_grown hfirst hc hgrow
      rw [List.length_take, Nat.min_eq_left hfirst.le] at hlast
      refine ih hgrown (by rw [hfirst']; split <;> omega) ?_
      rw [List.length_drop]
      exact (roomFor_grown hfirst hlast hfew hpool hlength hfirst' hlast'
        (List.length_pos_iff.2 hc.nonempty)).2 hroom

end Writing

/-! ## The function -/

section Function

/-- A chain of mbufs of one pool, with counters that describe it. -/
structure TargetChain (pool : Pool) where
  mbufs : List PoolMbuf
  counted : Counted mbufs
  room_le : ∀ m ∈ mbufs, m.tailroom ≤ pool.room

/-- What the function is for: with enough mbufs the string is written, what is written is the
string at the end of the chain, and a failed allocation, or anything else, is an error. -/
structure WritesAll {pool : Pool} (c : TargetChain pool) (str : List UInt8) : Prop where
  enough : ∀ allocs k, (∀ j, (allocs j).isSome = true) →
    ∃ c' k', httpWriteStr pool allocs k c.mbufs str = .ok c' k'
  appended : ∀ allocs k c' k', httpWriteStr pool allocs k c.mbufs str = .ok c' k' →
    Appended c.mbufs str c' ∧ ∀ j, k ≤ j → j < k' → (allocs j).isSome = true
  reports : ∀ allocs k, httpWriteStr pool allocs k c.mbufs str ≠ .crash

variable {pool : Pool}

theorem TargetChain.firstRoom_le
    (c : TargetChain pool) :
    firstRoom c.mbufs ≤ pool.room := by
  obtain ⟨m, rest, hcons⟩ := List.exists_cons_of_ne_nil c.counted.nonempty
  rw [hcons]
  exact c.room_le m (by simp [hcons])

theorem httpWriteStr_short
    (c : TargetChain pool) (allocs : Allocs) (k : Nat)
    {str : List UInt8}
    (hshort : str.length + 1 < 2 ^ 31) :
    httpWriteStr pool allocs k c.mbufs str = writeLoop pool allocs str k c.mbufs := by
  rw [httpWriteStr, if_neg c.counted.nonempty, if_neg (Nat.not_le.2 hshort)]

theorem httpWriteStr_long
    (c : TargetChain pool) (allocs : Allocs) (k : Nat)
    {str : List UInt8}
    (hlong : 2 ^ 31 ≤ str.length + 1) :
    httpWriteStr pool allocs k c.mbufs str = .error .einval := by
  rw [httpWriteStr, if_neg c.counted.nonempty, if_pos hlong]

theorem roomFor_of_httpWriteStr
    {c : TargetChain pool} {str : List UInt8} {allocs : Allocs} {k k' : Nat}
    {c' : List PoolMbuf}
    (hrun : httpWriteStr pool allocs k c.mbufs str = .ok c' k') :
    str.length + 1 < 2 ^ 31 ∧ RoomFor c.mbufs str.length := by
  rcases Nat.lt_or_ge (str.length + 1) (2 ^ 31) with hshort | hlong
  · rw [httpWriteStr_short c allocs k hshort] at hrun
    exact ⟨hshort, roomFor_of_writeLoop c.counted c.firstRoom_le hrun⟩
  · rw [httpWriteStr_long c allocs k hlong] at hrun
    cases hrun

/-- The function does what it is for if and only if the chain has the room. -/
theorem writesAll_iff
    (c : TargetChain pool) (str : List UInt8) :
    WritesAll c str ↔ str.length + 1 < 2 ^ 31 ∧ RoomFor c.mbufs str.length := by
  constructor
  · intro hwrites
    obtain ⟨c', k', hrun⟩ := hwrites.enough some 0 (fun _ => rfl)
    exact roomFor_of_httpWriteStr hrun
  · rintro ⟨hshort, hroom⟩
    have hrun := fun allocs k => httpWriteStr_short c allocs k hshort
    have hcases := fun allocs k => @writeLoop_of_roomFor pool allocs c.mbufs str k c.counted
      c.firstRoom_le hroom
    refine ⟨fun allocs k hall => ?_, fun allocs k c' k' hok => ?_, fun allocs k hcrash => ?_⟩
    · rw [hrun]
      rcases hcases allocs k with hok | ⟨⟨j, hnone⟩, -⟩
      · exact hok
      · have hsome := hall j
        rw [hnone] at hsome
        cases hsome
    · rw [hrun] at hok
      exact writeLoop_ok c.counted hok
    · rw [hrun] at hcrash
      rcases hcases allocs k with ⟨c', k', hok⟩ | ⟨-, herr⟩
      · rw [hok] at hcrash
        cases hcrash
      · rw [herr] at hcrash
        cases hcrash

/-- `GCFG_MBUF_PACKET_FRAGMENT_SIZE` is the room of a new mbuf by default. -/
def defaultPool : Pool :=
  ⟨2048, by decide⟩

/-- One new mbuf. -/
def newChain : TargetChain defaultPool where
  mbufs := [⟨⟨0, [], 0, 1⟩, 2048⟩]
  counted := ⟨by decide, by decide, by decide⟩
  room_le := by decide

/-- A string of 2049 bytes does not get into new mbufs of 2048 bytes, however many there are. -/
theorem long_string_not_written :
    ¬ WritesAll newChain (List.replicate 2049 97) := by
  intro hwrites
  obtain ⟨c', k', hrun⟩ := hwrites.enough some 0 (fun _ => rfl)
  have hroom := (roomFor_of_httpWriteStr hrun).2
  rw [List.length_replicate] at hroom
  exact absurd hroom (by decide)

end Function

end MessageWriting
end Warp17
