import Warp17.HttpDelivery
import Warp17.MessageWriting
import Warp17.SendRates

/-!
# Building HTTP messages

`http_build_req_pkt` and `http_build_resp_pkt` (src/src/appl/tpg_test_http_1_1_app.c) write the
lines of a header into a new mbuf and put a chain of `data_alloc_chain` (src/inc/tpg_data.h) behind
it for the body.  Their callers pass a null pointer for the mbuf, and stop where the result is an
error.

Where the body cannot be allocated, the functions go to their clean-up with the `err` of the last
line that was written, which is zero.

**Results**
- `writeLines_single`, `writeLines_iff_httpBuildPkt`: when a header is written, and what is written
  then.
- `dataAllocChain_some`: when a body is allocated.
- `messageBuilt_iff`: the allocations with which a message is built as it should be.
- `httpBuildPkt_storage`: a message that is built is one that the applications can send.
-/

namespace Warp17
namespace MessageBuilding

open SequenceComparison MbufChains TestCaseConfig MessageWriting
open SendRates (httpReqStrs httpRespStrs httpMethodName httpObjectName httpHostName httpFields
  httpStatusName httpTpgUserAgent httpContentLength crlf)

/-- A pool whose mbufs have as much room as `rte_pktmbuf_tailroom` can return. -/
structure MbufPool extends Pool where
  room_lt : room < 2 ^ 16

/-- The bytes of an mbuf before anything is written to it. -/
abbrev Memory := Nat → Nat → UInt8

/-- The configuration that a message is built from. -/
inductive HttpConfig
  | client (app : HttpClient)
  | server (app : HttpServer)

/-! ## The body -/

/-- `rte_pktmbuf_append` without a copy, as `data_alloc_chain` uses it. -/
def takeRoom (memory : Memory) (m : PoolMbuf) (len : Nat) : PoolMbuf :=
  { m with
    data := m.data ++ (List.range len).map (memory m.id)
    pktLen := m.pktLen + BitVec.ofNat 32 len
    tailroom := m.tailroom - len }

/-- The end of a round of `data_alloc_chain`: the mbuf of the round, and what is left. -/
inductive Taken
  | failed
  | last (m : PoolMbuf)
  | more (m : PoolMbuf) (left : Nat)
deriving DecidableEq, Repr

/-- A new mbuf takes what it has room for. -/
def takeMbuf (pool : Pool) (allocs : Allocs) (memory : Memory) (k dataLen : Nat) : Taken :=
  match pktMbufAlloc pool allocs k with
  | none => .failed
  | some m =>
      let reqLen := min dataLen m.tailroom
      if dataLen - reqLen = 0 then .last (takeRoom memory m reqLen)
      else .more (takeRoom memory m reqLen) (dataLen - reqLen)

theorem takeMbuf_more
    {pool : Pool} {allocs : Allocs} {memory : Memory} {k dataLen left : Nat} {m : PoolMbuf}
    (htake : takeMbuf pool allocs memory k dataLen = .more m left) :
    (allocs k).isSome = true ∧ pool.room < dataLen ∧ left = dataLen - pool.room ∧
      m.data.length = pool.room := by
  rw [takeMbuf] at htake
  split at htake
  next => cases htake
  next m₀ halloc =>
    dsimp only at htake
    split at htake
    next => cases htake
    next hmore =>
      obtain ⟨rfl, rfl⟩ := Taken.more.inj htake
      obtain ⟨id, hid, rfl⟩ := Option.map_eq_some_iff.1 halloc
      simp only [takeRoom, List.nil_append, List.length_map, List.length_range] at hmore ⊢
      exact ⟨by rw [hid]; rfl, by omega, by omega, by omega⟩

/-- The loop of `data_alloc_chain`. -/
def dataAllocLoop (pool : Pool) (allocs : Allocs) (memory : Memory) (k dataLen : Nat) :
    Option (List PoolMbuf × Nat) :=
  match htake : takeMbuf pool allocs memory k dataLen with
  | .failed => none
  | .last m => some ([m], k + 1)
  | .more m left =>
      (dataAllocLoop pool allocs memory (k + 1) left).map fun (rest, next) => (m :: rest, next)
termination_by dataLen
decreasing_by
  have hmore := takeMbuf_more htake
  have hpos := pool.pos
  omega

/-- The counters of the first mbuf. -/
def setCounters (dataLen : Nat) : List PoolMbuf → List PoolMbuf
  | [] => []
  | m :: rest =>
      { m with
        nbSegs := BitVec.ofNat 16 (rest.length + 1)
        pktLen := BitVec.ofNat 32 dataLen } :: rest

/-- `data_alloc_chain`; the mbufs of a chain that does not get complete are freed. -/
def dataAllocChain (pool : Pool) (allocs : Allocs) (memory : Memory) (k dataLen : Nat) :
    Option (List PoolMbuf × Nat) :=
  (dataAllocLoop pool allocs memory k dataLen).map fun (c, next) => (setCounters dataLen c, next)

/-! ## The message -/

/-- What `*mbuf` points to after a build. -/
inductive MbufSlot
  | null
  | freed
  | chain (c : List PoolMbuf)
deriving DecidableEq, Repr

/-- The result of a build, with `none` for zero. -/
structure Built where
  err : Option WriteError
  mbuf : MbufSlot
deriving DecidableEq, Repr

/-- The characters of a configured string are its bytes. -/
def strBytes (str : List Char) : List UInt8 :=
  str.map fun ch => UInt8.ofNat ch.toNat

/-- The lines of a header, one after the other, until one of them fails. -/
def writeLines (pool : Pool) (allocs : Allocs) : List (List UInt8) → Nat → List PoolMbuf → Written
  | [], k, c => .ok c k
  | line :: lines, k, c =>
      match httpWriteStr pool allocs k c line with
      | .ok c k => writeLines pool allocs lines k c
      | .error err => .error err
      | .crash => .crash

/-- The body behind the last segment. -/
def appendBody (c data : List PoolMbuf) : List PoolMbuf :=
  match c with
  | [] => data
  | m :: rest =>
      { m with
        nbSegs := m.nbSegs + BitVec.ofNat 16 (headNbSegs data)
        pktLen := m.pktLen + headPktLen data } :: (rest ++ data)

/-- The end of a build, once the header is written.  `err` is zero there. -/
def buildBody (pool : Pool) (allocs : Allocs) (memory : Memory) (size : Nat) (headerOnly : Bool)
    (k : Nat) (c : List PoolMbuf) : Built :=
  if size = 0 then ⟨none, .chain c⟩
  else if headerOnly then ⟨none, .chain (addPktLen size c)⟩
  else
    match dataAllocChain pool allocs memory k size with
    | none => ⟨none, .freed⟩
    | some (data, _) => ⟨none, .chain (appendBody c data)⟩

/-- What the two functions share: the header in `mbuf` and the body; `none` is a crash. -/
def buildInto (pool : Pool) (allocs : Allocs) (memory : Memory) (lines : List (List UInt8))
    (size : Nat) (headerOnly : Bool) (k : Nat) (mbuf : List PoolMbuf) : Option Built :=
  match writeLines pool allocs lines k mbuf with
  | .ok c k => some (buildBody pool allocs memory size headerOnly k c)
  | .error err => some ⟨some err, .freed⟩
  | .crash => none

def buildPkt (mbuf : Option (List PoolMbuf)) (pool : Pool) (allocs : Allocs) (memory : Memory)
    (lines : List (List UInt8)) (size : Nat) (headerOnly : Bool) : Option Built :=
  match mbuf with
  | some c => buildInto pool allocs memory lines size headerOnly 0 c
  | none =>
      match pktMbufAlloc pool allocs 0 with
      | none => some ⟨some .enomem, .null⟩
      | some m => buildInto pool allocs memory lines size headerOnly 1 [m]

def httpBuildReqPkt (mbuf : Option (List PoolMbuf)) (pool : Pool) (allocs : Allocs)
    (memory : Memory) (clientCfg : HttpClient) (headerOnly : Bool) : Option Built :=
  buildPkt mbuf pool allocs memory ((httpReqStrs clientCfg).map strBytes) clientCfg.hcReqSize
    headerOnly

def httpBuildRespPkt (mbuf : Option (List PoolMbuf)) (pool : Pool) (allocs : Allocs)
    (memory : Memory) (serverCfg : HttpServer) (headerOnly : Bool) : Option Built :=
  buildPkt mbuf pool allocs memory ((httpRespStrs serverCfg).map strBytes) serverCfg.hsRespSize
    headerOnly

/-- The lines of the message of a configuration. -/
def HttpConfig.lines : HttpConfig → List (List UInt8)
  | .client app => (httpReqStrs app).map strBytes
  | .server app => (httpRespStrs app).map strBytes

/-- The declared size of its body. -/
def HttpConfig.size : HttpConfig → Nat
  | .client app => app.hcReqSize
  | .server app => app.hsRespSize

/-- The build as its callers make it, without an mbuf. -/
def HttpConfig.build (cfg : HttpConfig) (pool : Pool) (allocs : Allocs) (memory : Memory)
    (headerOnly : Bool) : Option Built :=
  match cfg with
  | .client app => httpBuildReqPkt none pool allocs memory app headerOnly
  | .server app => httpBuildRespPkt none pool allocs memory app headerOnly

/-! ## The header -/

section Header

variable {pool : Pool} {allocs : Allocs} {c c' : List PoolMbuf} {left : List UInt8} {k k' : Nat}

/-- A write never copies through a null pointer where the first mbuf has no more room than the
last one.  By induction on the rounds. -/
theorem writeLoop_ne_crash
    (hc : Counted c)
    (hle : firstRoom c ≤ lastRoom c)
    (hpool : firstRoom c ≤ pool.room) :
    writeLoop pool allocs left k c ≠ .crash := by
  fun_induction writeLoop pool allocs left k c with
  | case1 k c =>
      exact Written.noConfusion
  | case2 left k c hne hfirst happend =>
      obtain ⟨filled, hsome, -⟩ := rtePktmbufAppend_spec hc (hfirst.trans hle)
      rw [happend] at hsome
      cases hsome
  | case3 left k c hne hfirst filled happend =>
      exact Written.noConfusion
  | case4 left k c hne hfirst hgrow =>
      rcases @growChain_cases pool allocs c (left.take (firstRoom c)) k hc
        (by rw [List.length_take]; omega) with ⟨grown, h⟩ | ⟨-, h⟩ | ⟨-, h⟩
      all_goals
        rw [hgrow] at h
        cases h
  | case5 left k c hne hfirst err hgrow =>
      exact Written.noConfusion
  | case6 left k c hne hfirst grown hgrow ih =>
      rw [not_le] at hfirst
      obtain ⟨-, hgrown, -, -, -, hlast⟩ := growChain_spec hc hgrow
      have hfirst' := firstRoom_grown hfirst hc hgrow
      refine ih hgrown ?_ ?_
      all_goals
        rw [hfirst']
        split <;> omega

/-- One mbuf with `n` bytes of room, as a build begins and as it goes on. -/
structure Single (pool : Pool) (n : Nat) (bytes : List UInt8) (c : List PoolMbuf) : Prop where
  counted : Counted c
  length : c.length = 1
  room : firstRoom c = n
  le : n ≤ pool.room
  bytes : poolBytes c = bytes

theorem Single.lastRoom
    {n : Nat} {bytes : List UInt8}
    (hc : Single pool n bytes c) :
    lastRoom c = n := by
  obtain ⟨m, rfl⟩ := List.length_eq_one_iff.1 hc.length
  exact hc.room

/-- A line that fits. -/
theorem Single.write
    {n : Nat} {bytes line : List UInt8}
    (hc : Single pool n bytes c)
    (hfits : line.length ≤ n)
    (hshort : line.length + 1 < 2 ^ 31) :
    ∃ c', httpWriteStr pool allocs k c line = .ok c' k ∧
      Single pool (n - line.length) (bytes ++ line) c' := by
  have hle := hc.le
  rw [httpWriteStr, if_neg hc.counted.nonempty, if_neg (Nat.not_le.2 hshort), writeLoop]
  by_cases hnil : line = []
  · rw [if_pos hnil]
    refine ⟨c, rfl, hc.counted, hc.length, ?_, by omega, ?_⟩
    · rw [hc.room, hnil]
      rfl
    · rw [hc.bytes, hnil, List.append_nil]
  · obtain ⟨c', happend, hcounted, hbytes, hlength, hfirst⟩ :=
      rtePktmbufAppend_spec hc.counted (by rw [hc.lastRoom]; exact hfits)
    rw [if_neg hnil, if_pos (by rw [hc.room]; exact hfits), happend]
    refine ⟨c', rfl, hcounted, by rw [hlength, hc.length], ?_, by omega, by rw [hbytes, hc.bytes]⟩
    rw [hfirst, if_pos hc.length, hc.room]

/-- A line that does not fit is an error. -/
theorem Single.write_error
    {n : Nat} {bytes line : List UInt8}
    (hc : Single pool n bytes c)
    (hlong : n < line.length) :
    ∃ err, httpWriteStr pool allocs k c line = .error err := by
  rw [httpWriteStr, if_neg hc.counted.nonempty]
  split
  next =>
    exact ⟨.einval, rfl⟩
  next =>
    have hpool : firstRoom c ≤ pool.room := by
      rw [hc.room]
      exact hc.le
    cases hrun : writeLoop pool allocs line k c with
    | ok c' k' =>
        exfalso
        have hlength := hc.length
        rcases roomFor_of_writeLoop hc.counted hpool hrun with hzero | ⟨hfits, -⟩ | ⟨hmore, -⟩
        · omega
        · rw [hc.room] at hfits
          omega
        · omega
    | error err =>
        exact ⟨err, rfl⟩
    | crash =>
        exfalso
        exact writeLoop_ne_crash hc.counted (by rw [hc.room, hc.lastRoom]) hpool hrun

/-- The lines of a header are written into one mbuf or are an error.  By induction on them. -/
theorem writeLines_single
    {n : Nat} {bytes : List UInt8} {lines : List (List UInt8)}
    (hc : Single pool n bytes c)
    (hroom : n < 2 ^ 16) :
    (lines.flatten.length ≤ n ∧ ∃ c', writeLines pool allocs lines k c = .ok c' k ∧
      Single pool (n - lines.flatten.length) (bytes ++ lines.flatten) c') ∨
    (n < lines.flatten.length ∧ ∃ err, writeLines pool allocs lines k c = .error err) := by
  induction lines generalizing n bytes c with
  | nil =>
      left
      refine ⟨Nat.zero_le n, c, rfl, ?_⟩
      rw [List.flatten_nil, List.append_nil]
      exact hc
  | cons line lines ih =>
      rw [List.flatten_cons, List.length_append, writeLines]
      rcases Nat.lt_or_ge n line.length with hlong | hfits
      · obtain ⟨err, herr⟩ := @Single.write_error pool allocs c k n bytes line hc hlong
        rw [herr]
        exact Or.inr ⟨by omega, err, rfl⟩
      · obtain ⟨c₁, hok, hc₁⟩ :=
          @Single.write pool allocs c k n bytes line hc hfits (by omega)
        rw [hok]
        rcases ih hc₁ (by omega) with ⟨hle, c', hrun, hc'⟩ | ⟨hgt, herr⟩
        · left
          refine ⟨by omega, c', hrun, ?_⟩
          rw [← List.append_assoc, ← Nat.sub_sub]
          exact hc'
        · exact Or.inr ⟨by omega, herr⟩

/-- So counting the packets of a send goes wrong for the headers that cannot be written. -/
theorem writeLines_iff_httpBuildPkt
    {n : Nat}
    (hc : Single pool n [] c)
    (hroom : n < 2 ^ 16)
    (strs : List (List Char)) (size : Nat) :
    (∃ c' k', writeLines pool allocs (strs.map strBytes) k c = .ok c' k') ↔
      (SendRates.httpBuildPkt (some n) strs size).isSome = true := by
  have hlength : (strs.map strBytes).flatten.length = strs.flatten.length := by
    simp [List.length_flatten, Function.comp_def, strBytes]
  rw [SendRates.httpBuildPkt_eq, Option.bind_some]
  rcases @writeLines_single pool allocs c k n [] (strs.map strBytes) hc hroom with
    ⟨hfits, c', hrun, -⟩ | ⟨hlong, err, herr⟩
  · rw [if_pos (by omega)]
    exact iff_of_true ⟨c', k, hrun⟩ rfl
  · rw [if_neg (by omega), herr]
    exact iff_of_false (by simp) (by simp)

theorem single_new
    {m : PoolMbuf}
    (halloc : pktMbufAlloc pool allocs k = some m) :
    Single pool pool.room [] [m] := by
  obtain ⟨id, -, rfl⟩ := Option.map_eq_some_iff.1 halloc
  exact ⟨⟨List.cons_ne_nil _ _, rfl, rfl⟩, rfl, rfl, le_rfl, rfl⟩

end Header

/-! ## The body is complete -/

section Body

variable {pool : Pool} {allocs : Allocs} {memory : Memory} {k next dataLen : Nat}
variable {c : List PoolMbuf}

theorem takeMbuf_last
    {m : PoolMbuf}
    (htake : takeMbuf pool allocs memory k dataLen = .last m) :
    (allocs k).isSome = true ∧ dataLen ≤ pool.room ∧ m.data.length = dataLen := by
  rw [takeMbuf] at htake
  split at htake
  next => cases htake
  next m₀ halloc =>
    dsimp only at htake
    split at htake
    next hlast =>
      obtain rfl := Taken.last.inj htake
      obtain ⟨id, hid, rfl⟩ := Option.map_eq_some_iff.1 halloc
      simp only [takeRoom, List.nil_append, List.length_map, List.length_range] at hlast ⊢
      exact ⟨by rw [hid]; rfl, by omega, by omega⟩
    next => cases htake

theorem takeMbuf_failed
    (htake : takeMbuf pool allocs memory k dataLen = .failed) :
    allocs k = none := by
  rw [takeMbuf] at htake
  split at htake
  next hnone =>
    exact Option.map_eq_none_iff.1 hnone
  next m₀ halloc =>
    dsimp only at htake
    split at htake <;> cases htake

/-- The allocations that a body of `dataLen` bytes takes, from the one with number `k`. -/
def BodyAllocated (pool : Pool) (allocs : Allocs) (k dataLen : Nat) : Prop :=
  ∀ j ≤ (dataLen - 1) / pool.room, (allocs (k + j)).isSome = true

instance (pool : Pool) (allocs : Allocs) (k dataLen : Nat) :
    Decidable (BodyAllocated pool allocs k dataLen) :=
  inferInstanceAs (Decidable (∀ j ≤ (dataLen - 1) / pool.room, (allocs (k + j)).isSome = true))

/-- One allocation more than those for the rest. -/
theorem bodyAllocated_more
    (hmore : pool.room < dataLen) :
    BodyAllocated pool allocs k dataLen ↔
      (allocs k).isSome = true ∧ BodyAllocated pool allocs (k + 1) (dataLen - pool.room) := by
  have hdiv : (dataLen - 1) / pool.room = (dataLen - pool.room - 1) / pool.room + 1 := by
    rw [Nat.div_eq_sub_div pool.pos (by omega), Nat.sub_right_comm]
  rw [BodyAllocated, BodyAllocated, hdiv]
  constructor
  · intro hall
    refine ⟨hall 0 (Nat.zero_le _), fun j hj => ?_⟩
    rw [Nat.add_assoc, Nat.add_comm 1 j]
    exact hall (j + 1) (Nat.succ_le_succ hj)
  · rintro ⟨hfirst, hrest⟩ j hj
    cases j with
    | zero =>
        exact hfirst
    | succ j =>
        have hsome := hrest j (Nat.le_of_succ_le_succ hj)
        rwa [Nat.add_assoc, Nat.add_comm 1 j] at hsome

/-- By induction on the rounds: a body is allocated if and only if all its mbufs are. -/
theorem dataAllocLoop_isSome :
    (dataAllocLoop pool allocs memory k dataLen).isSome = true ↔
      BodyAllocated pool allocs k dataLen := by
  fun_induction dataAllocLoop pool allocs memory k dataLen with
  | case1 k dataLen htake =>
      have hnone := takeMbuf_failed htake
      constructor
      · intro hsome
        cases hsome
      · intro hall
        have hfirst := hall 0 (Nat.zero_le _)
        rw [Nat.add_zero, hnone] at hfirst
        cases hfirst
  | case2 k dataLen m htake =>
      obtain ⟨hsome, hle, -⟩ := takeMbuf_last htake
      have hpos := pool.pos
      refine ⟨fun _ j hj => ?_, fun _ => rfl⟩
      rw [Nat.div_eq_of_lt (by omega), Nat.le_zero] at hj
      rw [hj]
      exact hsome
  | case3 k dataLen m left htake ih =>
      obtain ⟨hsome, hmore, rfl, -⟩ := takeMbuf_more htake
      rw [Option.isSome_map, ih, bodyAllocated_more hmore]
      exact ⟨fun hrest => ⟨hsome, hrest⟩, fun hall => hall.2⟩

/-- By induction on the rounds: the mbufs of a body, and their bytes. -/
theorem dataAllocLoop_spec
    (hrun : dataAllocLoop pool allocs memory k dataLen = some (c, next)) :
    c ≠ [] ∧ (poolBytes c).length = dataLen ∧ (0 < dataLen → ∀ m ∈ c, m.data ≠ []) := by
  fun_induction dataAllocLoop pool allocs memory k dataLen generalizing c next with
  | case1 k dataLen htake =>
      cases hrun
  | case2 k dataLen m htake =>
      obtain ⟨-, -, hdata⟩ := takeMbuf_last htake
      obtain ⟨rfl, rfl⟩ := Prod.mk.inj (Option.some.inj hrun)
      refine ⟨List.cons_ne_nil _ _, by rw [poolBytes_cons]; simp [poolBytes, hdata], ?_⟩
      intro hpos m' hm'
      rw [List.mem_singleton.1 hm', ← List.length_pos_iff, hdata]
      exact hpos
  | case3 k dataLen m left htake ih =>
      obtain ⟨-, hmore, rfl, hdata⟩ := takeMbuf_more htake
      obtain ⟨⟨rest, next'⟩, hrest, hcons⟩ := Option.map_eq_some_iff.1 hrun
      obtain ⟨rfl, rfl⟩ := Prod.mk.inj hcons
      obtain ⟨-, hbytes, hholds⟩ := ih hrest
      refine ⟨List.cons_ne_nil _ _, ?_, fun hpos m' hm' => ?_⟩
      · rw [poolBytes_cons, List.length_append, hbytes, hdata]
        omega
      · rcases List.mem_cons.1 hm' with rfl | hm'
        · rw [← List.length_pos_iff, hdata]
          exact pool.pos
        · exact hholds (by omega) m' hm'

theorem poolBytes_setCounters
    (c : List PoolMbuf) :
    poolBytes (setCounters dataLen c) = poolBytes c := by
  cases c <;> rfl

/-- What `data_alloc_chain` returns: as many bytes as were asked for. -/
theorem dataAllocChain_some
    (hall : BodyAllocated pool allocs k dataLen) :
    ∃ data next, dataAllocChain pool allocs memory k dataLen = some (data, next) ∧
      (poolBytes data).length = dataLen ∧ headPktLen data = BitVec.ofNat 32 dataLen ∧
      (0 < dataLen → ∀ m ∈ data, m.data ≠ []) := by
  obtain ⟨⟨c, next⟩, hrun⟩ :=
    Option.isSome_iff_exists.1 ((@dataAllocLoop_isSome pool allocs memory k dataLen).2 hall)
  obtain ⟨hne, hbytes, hholds⟩ := dataAllocLoop_spec hrun
  obtain ⟨m, rest, rfl⟩ := List.exists_cons_of_ne_nil hne
  refine ⟨_, next, by rw [dataAllocChain, hrun, Option.map_some], ?_, rfl, fun hpos m' hm' => ?_⟩
  · rw [poolBytes_setCounters, hbytes]
  · rcases List.mem_cons.1 hm' with rfl | hm'
    · exact hholds hpos m (by simp)
    · exact hholds hpos m' (by simp [hm'])

theorem dataAllocChain_none
    (hnot : ¬ BodyAllocated pool allocs k dataLen) :
    dataAllocChain pool allocs memory k dataLen = none := by
  rw [dataAllocChain, Option.map_eq_none_iff, ← Option.not_isSome_iff_eq_none,
    dataAllocLoop_isSome]
  exact hnot

end Body

/-! ## The message is complete -/

/-- The request line and the fields of a request, other than its content length. -/
def requestLine (app : HttpClient) : List Char :=
  httpMethodName app.hcReqMethod ++ [' '] ++ httpObjectName app.hcReqObjectName ++
    " HTTP/1.1\r\n".toList

def requestFields (app : HttpClient) : List (List Char) :=
  ["User-Agent: ".toList ++ httpTpgUserAgent ++ crlf,
    "Host: ".toList ++ httpHostName app.hcReqHostName ++ crlf,
    httpFields app.hcReqFields ++ crlf]

/-- The status line and the fields of a response, other than its content length. -/
def statusLine (app : HttpServer) : List Char :=
  "HTTP/1.1 ".toList ++ httpStatusName app.hsRespCode ++ crlf

def responseFields (app : HttpServer) : List (List Char) :=
  ["Server: ".toList ++ httpTpgUserAgent ++ crlf, httpFields app.hsRespFields ++ crlf]

def HttpConfig.startLine : HttpConfig → List Char
  | .client app => requestLine app
  | .server app => statusLine app

def HttpConfig.fields : HttpConfig → List (List Char)
  | .client app => requestFields app
  | .server app => responseFields app

/-- The whole header, up to and with the blank line. -/
def HttpConfig.header (cfg : HttpConfig) : List UInt8 :=
  strBytes (cfg.startLine ++ cfg.fields.flatten ++ httpContentLength cfg.size ++ crlf)

/-- The complete message of a configuration: the header, and behind it as many bytes as it
declares, which are only counted where a header alone is asked for. -/
structure Complete (cfg : HttpConfig) (headerOnly : Bool) (c : List PoolMbuf) : Prop where
  bytes : ∃ body, poolBytes c = cfg.header ++ body ∧
    body.length = if headerOnly then 0 else cfg.size
  pktLen : headPktLen c = BitVec.ofNat 32 (cfg.header.length + cfg.size)

/-- What a build has to do: it returns success only with the complete message, and an error only
without a message. -/
structure MessageBuilt (cfg : HttpConfig) (headerOnly : Bool) (run : Option Built) : Prop where
  returns : run.isSome = true
  complete : ∀ built ∈ run, built.err = none →
    ∃ c, built.mbuf = .chain c ∧ Complete cfg headerOnly c
  noPartial : ∀ built ∈ run, built.err ≠ none → ∀ c, built.mbuf ≠ .chain c

/-- There is an mbuf for the header, with the room for it. -/
structure HeaderWritten (cfg : HttpConfig) (pool : Pool) (allocs : Allocs) : Prop where
  allocated : (allocs 0).isSome = true
  fits : cfg.header.length ≤ pool.room

/-- A body is needed behind a header that is written, and cannot be allocated. -/
structure BodyLost (cfg : HttpConfig) (pool : Pool) (allocs : Allocs) (headerOnly : Bool) :
    Prop where
  header : HeaderWritten cfg pool allocs
  needed : headerOnly = false ∧ 0 < cfg.size
  lost : ¬ BodyAllocated pool allocs 1 cfg.size

section Message

variable {pool : Pool} {allocs : Allocs} {memory : Memory} {cfg : HttpConfig} {headerOnly : Bool}
variable {c : List PoolMbuf} {n : Nat}

theorem strBytes_append
    (a b : List Char) :
    strBytes (a ++ b) = strBytes a ++ strBytes b := by
  exact List.map_append

theorem flatten_strBytes
    (strs : List (List Char)) :
    (strs.map strBytes).flatten = strBytes strs.flatten := by
  rw [strBytes, List.map_flatten]
  rfl

theorem httpReqStrs_eq
    (app : HttpClient) :
    httpReqStrs app =
      requestLine app :: (requestFields app ++ [httpContentLength app.hcReqSize, crlf]) := by
  rfl

theorem httpRespStrs_eq
    (app : HttpServer) :
    httpRespStrs app =
      statusLine app :: (responseFields app ++ [httpContentLength app.hsRespSize, crlf]) := by
  rfl

/-- The lines that are written are those of the header. -/
theorem HttpConfig.flatten_lines
    (cfg : HttpConfig) :
    cfg.lines.flatten = cfg.header := by
  cases cfg with
  | client app =>
      simp [HttpConfig.lines, flatten_strBytes, strBytes_append, httpReqStrs_eq, HttpConfig.header,
        HttpConfig.startLine, HttpConfig.fields, HttpConfig.size]
  | server app =>
      simp [HttpConfig.lines, flatten_strBytes, strBytes_append, httpRespStrs_eq, HttpConfig.header,
        HttpConfig.startLine, HttpConfig.fields, HttpConfig.size]

theorem HttpConfig.header_ne_nil
    (cfg : HttpConfig) :
    cfg.header ≠ [] := by
  simp [HttpConfig.header, strBytes, crlf]

theorem HttpConfig.build_eq
    (cfg : HttpConfig) :
    cfg.build pool allocs memory headerOnly =
      buildPkt none pool allocs memory cfg.lines cfg.size headerOnly := by
  cases cfg <;> rfl

/-- A build stops with an error and without a message, or goes on to the body. -/
theorem HttpConfig.build_cases
    (pool : MbufPool) :
    (¬ HeaderWritten cfg pool.toPool allocs ∧ ∃ err mbuf,
      cfg.build pool.toPool allocs memory headerOnly = some ⟨some err, mbuf⟩ ∧
        ∀ c, mbuf ≠ .chain c) ∨
    (HeaderWritten cfg pool.toPool allocs ∧ ∃ c n, Single pool.toPool n cfg.header c ∧
      cfg.build pool.toPool allocs memory headerOnly =
        some (buildBody pool.toPool allocs memory cfg.size headerOnly 1 c)) := by
  rw [HttpConfig.build_eq, buildPkt]
  cases halloc : pktMbufAlloc pool.toPool allocs 0 with
  | none =>
      refine Or.inl ⟨fun hwritten => ?_, .enomem, .null, rfl, fun c => MbufSlot.noConfusion⟩
      have hsome := hwritten.allocated
      rw [Option.map_eq_none_iff.1 halloc] at hsome
      cases hsome
  | some m =>
      have hsome : (allocs 0).isSome = true := by
        obtain ⟨id, hid, -⟩ := Option.map_eq_some_iff.1 halloc
        rw [hid]
        rfl
      have hcases := @writeLines_single pool.toPool allocs [m] 1 pool.room [] cfg.lines
        (single_new halloc) pool.room_lt
      rw [cfg.flatten_lines, List.nil_append] at hcases
      dsimp only
      rw [buildInto]
      rcases hcases with ⟨hfits, c, hrun, hc⟩ | ⟨hlong, err, hrun⟩
      · rw [hrun]
        exact Or.inr ⟨⟨hsome, hfits⟩, c, _, hc, rfl⟩
      · rw [hrun]
        refine Or.inl ⟨fun hwritten => ?_, err, .freed, rfl, fun c => MbufSlot.noConfusion⟩
        have hfits := hwritten.fits
        omega

theorem poolBytes_appendBody
    (c data : List PoolMbuf) :
    poolBytes (appendBody c data) = poolBytes c ++ poolBytes data := by
  cases c with
  | nil => rfl
  | cons m rest => simp [appendBody, poolBytes]

/-- The end of a build behind a header that is written. -/
theorem buildBody_cases
    (hc : Single pool n cfg.header c) :
    ((headerOnly = false ∧ 0 < cfg.size ∧ ¬ BodyAllocated pool allocs 1 cfg.size) ∧
      buildBody pool allocs memory cfg.size headerOnly 1 c = ⟨none, .freed⟩) ∨
    (¬ (headerOnly = false ∧ 0 < cfg.size ∧ ¬ BodyAllocated pool allocs 1 cfg.size) ∧
      ∃ c', buildBody pool allocs memory cfg.size headerOnly 1 c = ⟨none, .chain c'⟩ ∧
        Complete cfg headerOnly c' ∧ c' ≠ [] ∧ ∀ m ∈ c', m.data ≠ []) := by
  obtain ⟨m, rfl⟩ := List.length_eq_one_iff.1 hc.length
  have hbytes := hc.bytes
  have hpktLen := hc.counted.pktLen
  rw [hbytes, headPktLen] at hpktLen
  have hdata : m.data ≠ [] := by
    rw [poolBytes_cons] at hbytes
    have hne := cfg.header_ne_nil
    rw [← hbytes] at hne
    simpa [poolBytes] using hne
  rw [buildBody]
  rcases Nat.eq_zero_or_pos cfg.size with hzero | hpos
  · rw [if_pos hzero]
    refine Or.inr ⟨fun hlost => by omega, [m], rfl, ⟨⟨[], ?_, ?_⟩, ?_⟩, List.cons_ne_nil _ _, ?_⟩
    · rw [hbytes, List.append_nil]
    · rw [hzero, ite_self, List.length_nil]
    · rw [headPktLen, hpktLen, hzero, Nat.add_zero]
    · simpa using hdata
  · rw [if_neg hpos.ne']
    cases headerOnly with
    | true =>
        rw [if_pos rfl]
        refine Or.inr ⟨fun hlost => Bool.noConfusion hlost.1, _, rfl, ⟨⟨[], ?_, rfl⟩, ?_⟩,
          List.cons_ne_nil _ _, ?_⟩
        · rw [poolBytes_addPktLen, hbytes, List.append_nil]
        · rw [addPktLen, headPktLen, hpktLen, BitVec.ofNat_add]
        · simpa [addPktLen] using hdata
    | false =>
        rw [if_neg Bool.false_ne_true]
        by_cases hall : BodyAllocated pool allocs 1 cfg.size
        · obtain ⟨data, next, hrun, hlength, hlen, hholds⟩ :=
            @dataAllocChain_some pool allocs memory 1 cfg.size hall
          rw [hrun]
          refine Or.inr ⟨fun hlost => hlost.2.2 hall, _, rfl,
            ⟨⟨poolBytes data, ?_, by rw [hlength]; rfl⟩, ?_⟩, List.cons_ne_nil _ _, ?_⟩
          · rw [poolBytes_appendBody, hbytes]
          · rw [appendBody, headPktLen, hpktLen, hlen, BitVec.ofNat_add]
          · simpa [appendBody, hdata] using hholds hpos
        · rw [dataAllocChain_none hall]
          exact Or.inl ⟨⟨rfl, hpos, hall⟩, rfl⟩

end Message

section Building

/-- A message is built as it should be, for every configuration and every pattern of allocations,
if and only if there is not a header whose body cannot be allocated. -/
theorem messageBuilt_iff
    (cfg : HttpConfig) (pool : MbufPool) (allocs : Allocs) (memory : Memory)
    (headerOnly : Bool) :
    MessageBuilt cfg headerOnly (cfg.build pool.toPool allocs memory headerOnly) ↔
      ¬ BodyLost cfg pool.toPool allocs headerOnly := by
  rcases @HttpConfig.build_cases allocs memory cfg headerOnly pool with
    ⟨hnot, err, mbuf, hrun, hslot⟩ | ⟨hwritten, c, n, hc, hrun⟩
  · rw [hrun]
    refine ⟨fun _ hlost => hnot hlost.header, fun _ => ⟨rfl, ?_, ?_⟩⟩
    · rintro built ⟨⟩ herr
      cases herr
    · rintro built ⟨⟩ -
      exact hslot
  · rw [hrun]
    rcases @buildBody_cases pool.toPool allocs memory cfg headerOnly c n hc with
      ⟨⟨honly, hpos, hnone⟩, hbody⟩ | ⟨hnot, c', hbody, hcomplete, -⟩
    · rw [hbody]
      refine ⟨fun hbuilt => ?_, fun hnot => absurd ⟨hwritten, ⟨honly, hpos⟩, hnone⟩ hnot⟩
      obtain ⟨c', hchain, -⟩ := hbuilt.complete _ rfl rfl
      cases hchain
    · rw [hbody]
      refine ⟨fun _ hlost => hnot ⟨hlost.needed.1, hlost.needed.2, hlost.lost⟩,
        fun _ => ⟨rfl, ?_, ?_⟩⟩
      · rintro built ⟨⟩ -
        exact ⟨c', rfl, hcomplete⟩
      · rintro built ⟨⟩ herr
        exact absurd rfl herr

/-- An mbuf of the default size. -/
def defaultMbufPool : MbufPool :=
  ⟨defaultPool, by decide⟩

/-- A request with a body of one byte. -/
def oneByteRequest : HttpConfig :=
  .client ⟨.get, none, none, 1, none⟩

/-- One mbuf, and no more. -/
def onlyOne : Allocs :=
  fun k => if k = 0 then some 0 else none

/-- Without an mbuf for the body the request is freed and the result is success. -/
theorem body_lost_is_success :
    ¬ MessageBuilt oneByteRequest false
      (oneByteRequest.build defaultMbufPool.toPool onlyOne (fun _ _ => 0) false) := by
  intro hbuilt
  have hrun : oneByteRequest.build defaultMbufPool.toPool onlyOne (fun _ _ => 0) false =
      some ⟨none, .freed⟩ := by
    decide +kernel
  obtain ⟨c, hchain, -⟩ := hbuilt.complete _ hrun rfl
  cases hchain

/-- A whole message of less than 4 gigabytes is one that the applications send. -/
theorem httpBuildPkt_storage
    {cfg : HttpConfig} {pool : MbufPool} {allocs : Allocs} {memory : Memory} {c : List PoolMbuf}
    (hrun : cfg.build pool.toPool allocs memory false = some ⟨none, .chain c⟩)
    (hsize : cfg.header.length + cfg.size < 2 ^ 32) :
    ∃ storage : HttpDelivery.HttpStorage, storage.httpMbuf = c.map PoolMbuf.toMbuf := by
  rcases @HttpConfig.build_cases allocs memory cfg false pool with
    ⟨-, err, mbuf, herr, -⟩ | ⟨-, c₁, n, hc, hbuilt⟩
  · rw [herr] at hrun
    cases hrun
  · rw [hbuilt] at hrun
    rcases @buildBody_cases pool.toPool allocs memory cfg false c₁ n hc with
      ⟨-, hbody⟩ | ⟨-, c', hbody, ⟨⟨body, hbytes, hlength⟩, hpktLen⟩, hne, hholds⟩
    · rw [hbody] at hrun
      cases hrun
    · rw [hbody] at hrun
      obtain rfl : c' = c := by
        cases hrun
        rfl
      obtain ⟨m, rest, rfl⟩ := List.exists_cons_of_ne_nil hne
      have hchain : chainBytes ((m :: rest).map PoolMbuf.toMbuf) = poolBytes (m :: rest) := by
        simp [chainBytes, poolBytes, List.flatMap_map]
      refine ⟨⟨(m :: rest).map PoolMbuf.toMbuf, by simp, by simpa using hholds, ?_⟩, rfl⟩
      rw [hchain, hbytes, List.length_append, hlength, if_neg Bool.false_ne_true]
      have hlen : chainPktLen ((m :: rest).map PoolMbuf.toMbuf) = headPktLen (m :: rest) := rfl
      rw [hlen, hpktLen, BitVec.toNat_ofNat, Nat.mod_eq_of_lt hsize]

end Building

end MessageBuilding
end Warp17
