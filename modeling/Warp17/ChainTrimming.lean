import Warp17.MbufChains

/-!
# Trimming a chain of any shape

`MbufChains` settles `data_adj_chain` for the chains that TCP keeps, in which every mbuf
holds data.  Here the chain is arbitrary: mbufs of length zero, a trim of any 32-bit length
up to the length of the chain, and the mbufs that are given back are part of the result.

The slow path is right for every such trim.  The fast path is not in two cases:
`rte_pktmbuf_adj` takes the length as a `uint16_t`, and a trim that ends exactly where the
first mbuf ends returns the second one without setting its `pkt_len`.

**Results**
- `trimmed_slow`, `trimmed_inside`: the trims that end in a later mbuf, or inside the first.
- `dataAdjChain_trims_iff`: exactly which trims are right.
-/

namespace Warp17
namespace ChainTrimming

open SequenceComparison MbufChains

/-- The addresses of the mbufs of a chain. -/
def chainIds (c : Chain) : List Nat :=
  c.map Mbuf.id

/-- The mbufs the loop of `data_adj_chain()` gives to `pkt_mbuf_free_seg()`, in order. -/
def skippedIds : Chain → Nat → List Nat
  | [], _ => []
  | m :: rest, len =>
      if 0 < len ∧ m.data.length ≤ len then
        m.id :: skippedIds rest (len - m.data.length)
      else
        []

/-- The mbufs `data_adj_chain()` gives to `pkt_mbuf_free_seg()`, in order. -/
def dataAdjChainFreed (c : Chain) (len : U32) : List Nat :=
  match c with
  | [] => []
  | m :: rest =>
      match rtePktmbufAdj m len with
      | some m' =>
          if m'.data ≠ [] then
            []
          else
            match rest with
            | [] => []
            | _ :: _ => [m.id]
      | none => skippedIds (m :: rest) len.toNat

/-- A chain as the packet layer hands it out: different mbufs, of any lengths. -/
structure WellFormed (c : Chain) : Prop where
  nonempty : c ≠ []
  distinct : (chainIds c).Nodup
  dataLen : ∀ m ∈ c, m.data.length < 2 ^ 16
  pktLen : (chainPktLen c).toNat = (chainBytes c).length

/-- `kept` and `freed` are what the trim of `c` by `t` bytes has to leave and to give back. -/
structure Trimmed (c : Chain) (t : Nat) (kept : Chain) (freed : List Nat) : Prop where
  bytes : chainBytes kept = (chainBytes c).drop t
  pktLen : kept ≠ [] → (chainPktLen kept).toNat = (chainPktLen c).toNat - t
  total : kept ≠ [] → (chainPktLen kept).toNat = (chainBytes kept).length
  /-- the freed mbufs come before the kept ones, and none is left out -/
  split : freed ++ chainIds kept = chainIds c
  once : (freed ++ chainIds kept).Nodup

/--
The trim by `t` bytes is not cut down to fewer bytes of the first mbuf, and where it ends at
the end of the first mbuf, the next one already carries the length of the rest.
-/
def TrimExact (c : Chain) (t : Nat) : Prop :=
  match c with
  | [] => True
  | m :: rest =>
      (t < 2 ^ 16 ∨ m.data.length < t % 2 ^ 16) ∧
        (t = m.data.length → rest ≠ [] →
          (chainPktLen rest).toNat = (chainBytes rest).length)

@[simp] theorem chainIds_cons
    (m : Mbuf) (c : Chain) :
    chainIds (m :: c) = m.id :: chainIds c := by
  rfl

section Loop

/-- The loop gives back what it moves past. -/
theorem skippedIds_append
    (c : Chain) (t : Nat) :
    skippedIds c t ++ chainIds (skipMbufs c t).1 = chainIds c := by
  induction c generalizing t with
  | nil =>
      rfl
  | cons m rest ih =>
      by_cases h : 0 < t ∧ m.data.length ≤ t
      · simp [skippedIds, skipMbufs, h, ih]
      · simp [skippedIds, skipMbufs, h]

/-- The loop ends with nothing left to trim, or inside an mbuf that is longer than that. -/
theorem skipMbufs_inside
    {c : Chain} {t : Nat}
    (ht : t ≤ (chainBytes c).length) :
    (skipMbufs c t).2 = 0 ∨
      ∃ n tail, (skipMbufs c t).1 = n :: tail ∧ (skipMbufs c t).2 < n.data.length := by
  induction c generalizing t with
  | nil =>
      left
      simpa [skipMbufs] using ht
  | cons m rest ih =>
      by_cases h : 0 < t ∧ m.data.length ≤ t
      · rw [skipMbufs, if_pos h]
        apply ih
        simp only [chainBytes_cons, List.length_append] at ht
        omega
      · rw [skipMbufs, if_neg h]
        rcases Nat.eq_zero_or_pos t with hzero | hpos
        · exact Or.inl hzero
        · exact Or.inr ⟨m, rest, rfl, by omega⟩

end Loop

section Paths

variable {c : Chain} {len : U32}

/-- `rte_pktmbuf_adj` looks at the low 16 bits of the length. -/
theorem rtePktmbufAdj_low
    (m : Mbuf) (len : U32) :
    rtePktmbufAdj m len =
      if m.data.length < len.toNat % 2 ^ 16 then
        none
      else
        some { m with
          data := m.data.drop (len.toNat % 2 ^ 16)
          pktLen := m.pktLen - BitVec.ofNat 32 (len.toNat % 2 ^ 16) } := by
  have hlow : (len.truncate 16).toNat = len.toNat % 2 ^ 16 := by
    simp
  have hwide : (len.truncate 16).zeroExtend 32 = BitVec.ofNat 32 (len.toNat % 2 ^ 16) := by
    apply BitVec.eq_of_toNat_eq
    simp
  simp only [rtePktmbufAdj, hlow, hwide]

theorem toNat_sub_len
    {a : U32}
    (h : len.toNat ≤ a.toNat) :
    (a - len).toNat = a.toNat - len.toNat := by
  bv_omega

/-- The length of a chain that lost its first bytes. -/
theorem drop_total
    (hc : WellFormed c) :
    ((chainBytes c).drop len.toNat).length = (chainPktLen c).toNat - len.toNat := by
  rw [List.length_drop, hc.pktLen]

/-- What is kept has the length of the chain less the trim, if its bytes are right. -/
theorem Trimmed.of_pktLen
    {kept : Chain} {freed : List Nat}
    (hc : WellFormed c)
    (hbytes : chainBytes kept = (chainBytes c).drop len.toNat)
    (hpkt : kept ≠ [] → (chainPktLen kept).toNat = (chainPktLen c).toNat - len.toNat)
    (hsplit : freed ++ chainIds kept = chainIds c) :
    Trimmed c len.toNat kept freed where
  bytes := hbytes
  pktLen := hpkt
  total := by
    intro hkept
    rw [hpkt hkept, hbytes, drop_total hc]
  split := hsplit
  once := by
    rw [hsplit]
    exact hc.distinct

/-- The slow path frees whole mbufs, trims inside one and sets the length of the rest. -/
theorem trimmed_slow
    {m : Mbuf} {rest : Chain}
    (hc : WellFormed (m :: rest))
    (hlen : len.toNat ≤ m.pktLen.toNat)
    (hslow : m.data.length < len.toNat % 2 ^ 16) :
    Trimmed (m :: rest) len.toNat (dataAdjChain (m :: rest) len)
      (dataAdjChainFreed (m :: rest) len) := by
  have htotal : m.pktLen.toNat = (chainBytes (m :: rest)).length := hc.pktLen
  have hbytes := skipMbufs_bytes (m :: rest) len.toNat
  have hids := skippedIds_append (m :: rest) len.toNat
  have hinside := skipMbufs_inside (c := m :: rest) (t := len.toNat) (by omega)
  have hsuf := skipMbufs_suffix (m :: rest) len.toNat
  have hfreed : dataAdjChainFreed (m :: rest) len = skippedIds (m :: rest) len.toNat := by
    simp only [dataAdjChainFreed, rtePktmbufAdj_low, if_pos hslow]
  rw [hfreed]
  rcases hstop : skipMbufs (m :: rest) len.toNat with ⟨kept, left⟩
  rw [hstop] at hbytes hids hinside hsuf
  simp only at hbytes hids hinside hsuf
  cases kept with
  | nil =>
      have hkept : dataAdjChain (m :: rest) len = [] := by
        simp only [dataAdjChain, rtePktmbufAdj_low m len, if_pos hslow, hstop]
      rw [hkept]
      exact .of_pktLen hc (by simpa using hbytes) (fun h => absurd rfl h) hids
  | cons n tail =>
      have hleft : left ≤ n.data.length := by
        rcases hinside with hzero | ⟨_, _, heq, hlt⟩
        · omega
        · cases heq
          exact hlt.le
      have hsmall := hc.dataLen n (hsuf.subset (by simp))
      have hcut := rtePktmbufAdj_eq n (t := left) (by omega)
      rw [if_neg (by omega)] at hcut
      have hkept :
          dataAdjChain (m :: rest) len =
            { n with data := n.data.drop left, pktLen := m.pktLen - len } :: tail := by
        simp only [dataAdjChain, rtePktmbufAdj_low m len, if_pos hslow, hstop, hcut,
          Option.getD_some]
      rw [hkept]
      refine .of_pktLen hc ?_ (fun _ => toNat_sub_len hlen) hids
      rw [← hbytes, chainBytes_cons, chainBytes_cons, List.drop_append_of_le_length hleft]

/-- A trim that ends before the end of the first mbuf. -/
theorem trimmed_inside
    {m : Mbuf} {rest : Chain}
    (hc : WellFormed (m :: rest))
    (hlen : len.toNat ≤ m.pktLen.toNat)
    (hinside : len.toNat < m.data.length) :
    Trimmed (m :: rest) len.toNat (dataAdjChain (m :: rest) len)
      (dataAdjChainFreed (m :: rest) len) := by
  have hsmall := hc.dataLen m (by simp)
  have hlow : len.toNat % 2 ^ 16 = len.toNat := Nat.mod_eq_of_lt (by omega)
  have hdata : m.data.drop len.toNat ≠ [] := by
    simpa using hinside
  have hadj := rtePktmbufAdj_low m len
  rw [hlow, if_neg (by omega), BitVec.ofNat_toNat, BitVec.setWidth_eq] at hadj
  simp only [dataAdjChain, dataAdjChainFreed, hadj, ne_eq, hdata, not_false_eq_true, if_true]
  refine .of_pktLen hc ?_ (fun _ => toNat_sub_len hlen) rfl
  rw [chainBytes_cons, chainBytes_cons, List.drop_append_of_le_length hinside.le]

/-- A trim that ends at the end of the first mbuf returns the next one as it is. -/
theorem trimmed_boundary_iff
    {m : Mbuf} {rest : Chain}
    (hc : WellFormed (m :: rest))
    (hlen : len.toNat ≤ m.pktLen.toNat)
    (hend : len.toNat = m.data.length) :
    Trimmed (m :: rest) len.toNat (dataAdjChain (m :: rest) len)
        (dataAdjChainFreed (m :: rest) len) ↔
      (rest ≠ [] → (chainPktLen rest).toNat = (chainBytes rest).length) := by
  have hsmall := hc.dataLen m (by simp)
  have hlow : len.toNat % 2 ^ 16 = len.toNat := Nat.mod_eq_of_lt (by omega)
  have hdata : m.data.drop len.toNat = [] := by
    simp [hend]
  have hadj := rtePktmbufAdj_low m len
  rw [hlow, if_neg (by omega), BitVec.ofNat_toNat, BitVec.setWidth_eq] at hadj
  simp only [dataAdjChain, dataAdjChainFreed, hadj, ne_eq, hdata, not_true_eq_false, if_false]
  cases rest with
  | nil =>
      simp only [not_true_eq_false, false_imp_iff, iff_true]
      refine .of_pktLen hc ?_ (fun _ => toNat_sub_len hlen) rfl
      simp [hend]
  | cons next tail =>
      constructor
      · intro h hrest
        exact h.total hrest
      · intro h
        have hbytes :
            chainBytes (next :: tail) = (chainBytes (m :: next :: tail)).drop len.toNat := by
          rw [chainBytes_cons m, hend, List.drop_left]
        refine .of_pktLen hc hbytes (fun hrest => ?_) rfl
        rw [h hrest, hbytes, drop_total hc]

/-- A trim whose low 16 bits stay inside the first mbuf leaves too many bytes. -/
theorem not_trimmed_wide
    {m : Mbuf} {rest : Chain}
    (hc : WellFormed (m :: rest))
    (hlen : len.toNat ≤ m.pktLen.toNat)
    (hwide : 2 ^ 16 ≤ len.toNat)
    (hfast : len.toNat % 2 ^ 16 ≤ m.data.length) :
    ¬ Trimmed (m :: rest) len.toNat (dataAdjChain (m :: rest) len)
      (dataAdjChainFreed (m :: rest) len) := by
  intro h
  have hsmall := hc.dataLen m (by simp)
  have htotal : m.pktLen.toNat = (chainBytes (m :: rest)).length := hc.pktLen
  have hadj := rtePktmbufAdj_low m len
  rw [if_neg (by omega)] at hadj
  have hcount := congrArg List.length h.bytes
  rw [drop_total hc, chainPktLen_cons, htotal] at hcount
  simp only [chainBytes_cons, List.length_append] at htotal hcount
  by_cases hdata : m.data.drop (len.toNat % 2 ^ 16) = []
  · -- the first mbuf is dropped, and nothing of the rest
    simp only [dataAdjChain, hadj, ne_eq, hdata, not_true_eq_false, if_false] at hcount
    cases rest with
    | nil =>
        simp only [chainBytes_nil, List.length_nil] at htotal
        omega
    | cons next tail =>
        simp only at hcount
        omega
  · simp only [dataAdjChain, hadj, ne_eq, hdata, not_false_eq_true, if_true, chainBytes_cons,
      List.length_append, List.length_drop] at hcount
    omega

end Paths

/-- Exactly the trims that `data_adj_chain` gets right. -/
theorem dataAdjChain_trims_iff
    {c : Chain} {len : U32}
    (hc : WellFormed c)
    (hlen : len.toNat ≤ (chainPktLen c).toNat) :
    Trimmed c len.toNat (dataAdjChain c len) (dataAdjChainFreed c len) ↔
      TrimExact c len.toNat := by
  cases c with
  | nil =>
      exact absurd rfl hc.nonempty
  | cons m rest =>
      have hsmall := hc.dataLen m (by simp)
      rw [chainPktLen_cons] at hlen
      rw [TrimExact]
      by_cases hslow : m.data.length < len.toNat % 2 ^ 16
      · have hpast : len.toNat ≠ m.data.length := by
          have := Nat.mod_le len.toNat (2 ^ 16)
          omega
        exact iff_of_true (trimmed_slow hc hlen hslow)
          ⟨Or.inr hslow, fun hend => absurd hend hpast⟩
      · rcases Nat.lt_or_ge len.toNat (2 ^ 16) with hshort | hwide
        · rw [Nat.mod_eq_of_lt hshort, not_lt] at hslow
          rcases Nat.eq_or_lt_of_le hslow with hend | hinside
          · rw [trimmed_boundary_iff hc hlen hend]
            exact ⟨fun h => ⟨Or.inl hshort, fun _ => h⟩, fun h => h.2 hend⟩
          · exact iff_of_true (trimmed_inside hc hlen hinside)
              ⟨Or.inl hshort, fun hend => absurd hend hinside.ne⟩
        · refine iff_of_false (not_trimmed_wide hc hlen hwide (by omega)) fun h => ?_
          rcases h.1 with hshort | hpast
          · omega
          · exact hslow hpast

/-- Three mbufs, chained one after the other, the second of them with no data. -/
def threeMbufs : Chain :=
  [{ id := 0, data := [1, 2, 3], pktLen := 5, nbSegs := 3 },
    { id := 1, data := [], pktLen := 0, nbSegs := 1 },
    { id := 2, data := [4, 5], pktLen := 2, nbSegs := 1 }]

theorem threeMbufs_wellFormed :
    WellFormed threeMbufs := by
  constructor <;> decide

/-- A trim past the empty mbuf is right. -/
theorem dataAdjChain_trims_iff_past :
    Trimmed threeMbufs 4 (dataAdjChain threeMbufs 4) (dataAdjChainFreed threeMbufs 4) :=
  (@dataAdjChain_trims_iff threeMbufs 4 threeMbufs_wellFormed (by decide)).2
    ⟨by decide, fun hend => absurd hend (by decide)⟩

/-- A trim of exactly the first mbuf returns the second one with its own `pkt_len` of 0. -/
theorem dataAdjChain_boundary :
    WellFormed threeMbufs ∧ (3 : U32).toNat ≤ (chainPktLen threeMbufs).toNat ∧
      ¬ Trimmed threeMbufs 3 (dataAdjChain threeMbufs 3) (dataAdjChainFreed threeMbufs 3) := by
  refine ⟨threeMbufs_wellFormed, by decide, fun h => ?_⟩
  exact absurd (h.total (by decide)) (by decide)

end ChainTrimming
end Warp17
