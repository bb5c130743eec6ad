import Warp17.SequenceComparison

/-!
# Mbuf chains

Packet data is held in chains of mbufs linked by `next`; only the `pkt_len` and `nb_segs` of
the first mbuf of a chain describe the whole chain.  A chain is modelled by the list of its
mbufs, the null pointer by the empty list.  An mbuf keeps an identity, because the
retransmission queue also refers to one of its mbufs by pointer.

The operations are those of `tpg_data.h` that TCP uses, with their fast paths and with the
`uint16_t` length that `rte_pktmbuf_adj` takes.  The functions of the DPDK among them are written
after its documentation, here and in the modules that import this one.

**Results**
- `dataAdjChain_spec`: a trim that stays inside a well-formed chain removes exactly the
  first bytes and leaves a well-formed chain, unless it ends where the first mbuf ends and
  the next mbuf does not carry the length of the rest (`AdjExact`).
- `dataMbufMerge_wellFormed`: merging well-formed chains appends their bytes.
-/

namespace Warp17
namespace MbufChains

open SequenceComparison

/-- The fields of `struct rte_mbuf` that TCP data handling uses. -/
structure Mbuf where
  /-- the address of the mbuf -/
  id : Nat
  /-- the `data_len` bytes at `data_off` -/
  data : List UInt8
  pktLen : U32
  nbSegs : BitVec 16
deriving DecidableEq, Repr

/-- A chain of mbufs linked by `next`. -/
abbrev Chain := List Mbuf

/-- `mbuf->pkt_len` of the first mbuf. -/
def chainPktLen : Chain → U32
  | [] => 0
  | m :: _ => m.pktLen

/-- The bytes a chain holds, in order. -/
def chainBytes (c : Chain) : List UInt8 :=
  c.flatMap Mbuf.data

/-- `rte_pktmbuf_lastseg()`, as the DPDK documents it. -/
def rtePktmbufLastseg (c : Chain) : Option Nat :=
  c.getLast?.map Mbuf.id

/-- `rte_pktmbuf_adj()`, as the DPDK documents it: the length is a `uint16_t`, and `none` is the
null result. -/
def rtePktmbufAdj (m : Mbuf) (len : U32) : Option Mbuf :=
  let len16 := len.truncate 16
  if m.data.length < len16.toNat then
    none
  else
    some { m with
      data := m.data.drop len16.toNat
      pktLen := m.pktLen - len16.zeroExtend 32 }

/-- The loop of `data_adj_chain()` that frees the mbufs it moves past. -/
def skipMbufs : Chain → Nat → Chain × Nat
  | [], len => ([], len)
  | m :: rest, len =>
      if 0 < len ∧ m.data.length ≤ len then
        skipMbufs rest (len - m.data.length)
      else
        (m :: rest, len)

/-- `data_adj_chain()`; the empty chain stands for its null result. -/
def dataAdjChain (c : Chain) (len : U32) : Chain :=
  match c with
  | [] => []
  | m :: rest =>
      match rtePktmbufAdj m len with
      | some m' =>
          if m'.data ≠ [] then
            m' :: rest
          else
            -- the trim ended exactly at the end of the first mbuf
            match rest with
            | [] => [m']
            | next :: tail => next :: tail
      | none =>
          match skipMbufs (m :: rest) len.toNat with
          | ([], _) => []
          | (n :: tail, left) =>
              let n' := (rtePktmbufAdj n (BitVec.ofNat 32 left)).getD n
              { n' with pktLen := m.pktLen - len } :: tail

/-- `data_mbuf_merge()`. -/
def dataMbufMerge (dest src : Chain) : Chain :=
  match dest with
  | [] => []
  | d :: rest =>
      { d with
        nbSegs := d.nbSegs + (match src with | [] => 0 | s :: _ => s.nbSegs)
        pktLen := d.pktLen + chainPktLen src } :: (rest ++ src)

/-- The copying loop of `data_clone_seg()`, from byte `off` of the first mbuf. -/
def cloneParts : Chain → Nat → Nat → Option (List UInt8)
  | [], _, _ => none
  | m :: rest, off, len =>
      if len ≤ (m.data.drop off).length then
        some ((m.data.drop off).take len)
      else
        (cloneParts rest 0 (len - (m.data.drop off).length)).map (m.data.drop off ++ ·)

/-- The loop of `data_clone_seg()` and `tcp_data_get_unsent()` that finds an offset. -/
def seekOffset : Chain → Nat → Chain × Nat
  | [], off => ([], off)
  | m :: rest, off =>
      if m.data.length ≤ off then
        seekOffset rest (off - m.data.length)
      else
        (m :: rest, off)

/-- `data_clone_seg()`: the bytes of the clone. -/
def dataCloneSeg (c : Chain) (segDataLen dataOffset : Nat) : Option (List UInt8) :=
  if segDataLen = 0 then
    none
  else
    cloneParts (seekOffset c dataOffset).1 (seekOffset c dataOffset).2 segDataLen

@[simp] theorem chainBytes_nil :
    chainBytes [] = [] := by
  rfl

@[simp] theorem chainBytes_cons
    (m : Mbuf) (c : Chain) :
    chainBytes (m :: c) = m.data ++ chainBytes c := by
  simp [chainBytes]

@[simp] theorem chainBytes_append
    (c d : Chain) :
    chainBytes (c ++ d) = chainBytes c ++ chainBytes d := by
  simp [chainBytes]

section WellFormed

/-- Every mbuf of the chain holds data, and the first carries the length of the chain. -/
structure ChainOk (c : Chain) : Prop where
  nonempty : c ≠ []
  holdsData : ∀ m ∈ c, m.data ≠ []
  dataLen : ∀ m ∈ c, m.data.length < 2 ^ 16
  pktLen : chainPktLen c = BitVec.ofNat 32 (chainBytes c).length

instance (c : Chain) : Decidable (ChainOk c) :=
  decidable_of_iff
    (c ≠ [] ∧ (∀ m ∈ c, m.data ≠ []) ∧ (∀ m ∈ c, m.data.length < 2 ^ 16) ∧
      chainPktLen c = BitVec.ofNat 32 (chainBytes c).length)
    ⟨fun h => ⟨h.1, h.2.1, h.2.2.1, h.2.2.2⟩,
      fun h => ⟨h.nonempty, h.holdsData, h.dataLen, h.pktLen⟩⟩

/--
A trim that removes the bytes from `start` up to `stop` of the chain does not end exactly
where the mbuf it begins in ends, or the mbuf after that one carries the length of the rest.
-/
def AdjExact : Chain → Nat → Nat → Prop
  | [], _, _ => True
  | m :: rest, start, stop =>
      if start < m.data.length then
        stop = m.data.length → rest ≠ [] →
          chainPktLen rest = BitVec.ofNat 32 (chainBytes rest).length
      else
        AdjExact rest (start - m.data.length) (stop - m.data.length)

instance AdjExact.decidable : (c : Chain) → (start stop : Nat) → Decidable (AdjExact c start stop)
  | [], _, _ => isTrue trivial
  | m :: rest, start, stop =>
      if h : start < m.data.length then
        decidable_of_iff
          (stop = m.data.length → rest ≠ [] →
            chainPktLen rest = BitVec.ofNat 32 (chainBytes rest).length)
          (by simp [AdjExact, h])
      else
        have := AdjExact.decidable rest (start - m.data.length) (stop - m.data.length)
        decidable_of_iff
          (AdjExact rest (start - m.data.length) (stop - m.data.length))
          (by simp [AdjExact, h])

theorem ChainOk.bytes_pos
    {c : Chain}
    (hc : ChainOk c) :
    0 < (chainBytes c).length := by
  cases c with
  | nil =>
      exact absurd rfl hc.nonempty
  | cons m rest =>
      have hm := List.length_pos_iff.2 (hc.holdsData m (by simp))
      simp
      omega

theorem chainPktLen_cons
    (m : Mbuf) (rest : Chain) :
    chainPktLen (m :: rest) = m.pktLen := by
  rfl

theorem skipMbufs_bytes
    (c : Chain) (len : Nat) :
    (chainBytes (skipMbufs c len).1).drop (skipMbufs c len).2 =
      (chainBytes c).drop len := by
  induction c generalizing len with
  | nil =>
      simp [skipMbufs]
  | cons m rest ih =>
      by_cases h : 0 < len ∧ m.data.length ≤ len
      · simp [skipMbufs, h, ih, List.drop_append]
      · simp [skipMbufs, h]

theorem skipMbufs_suffix
    (c : Chain) (len : Nat) :
    (skipMbufs c len).1 <:+ c := by
  induction c generalizing len with
  | nil =>
      simp [skipMbufs]
  | cons m rest ih =>
      by_cases h : 0 < len ∧ m.data.length ≤ len
      · simp only [skipMbufs, h, and_self, if_true]
        exact (ih _).trans (List.suffix_cons m rest)
      · simp [skipMbufs, h]

/-- The loop stops inside the mbuf that holds the first byte that stays. -/
theorem skipMbufs_stop
    {c : Chain} {len : Nat}
    (hlen : len < (chainBytes c).length) :
    ∃ n tail left,
      skipMbufs c len = (n :: tail, left) ∧
      (left = 0 ∨ left < n.data.length) := by
  induction c generalizing len with
  | nil =>
      simp at hlen
  | cons m rest ih =>
      by_cases h : 0 < len ∧ m.data.length ≤ len
      · have hrest : len - m.data.length < (chainBytes rest).length := by
          simp at hlen
          omega
        obtain ⟨n, tail, left, heq, hleft⟩ := ih hrest
        exact ⟨n, tail, left, by simp [skipMbufs, h, heq], hleft⟩
      · refine ⟨m, rest, len, by simp [skipMbufs, h], ?_⟩
        omega

/-- Trimming less than one mbuf of data. -/
theorem rtePktmbufAdj_eq
    (m : Mbuf) {t : Nat}
    (hsmall : t < 2 ^ 16) :
    rtePktmbufAdj m (BitVec.ofNat 32 t) =
      if m.data.length < t then
        none
      else
        some { m with
          data := m.data.drop t
          pktLen := m.pktLen - BitVec.ofNat 32 t } := by
  have hlen : ((BitVec.ofNat 32 t).truncate 16).toNat = t := by
    simp
    omega
  have hwide : ((BitVec.ofNat 32 t).truncate 16).zeroExtend 32 = BitVec.ofNat 32 t := by
    apply BitVec.eq_of_toNat_eq
    simp
    omega
  simp only [rtePktmbufAdj, hlen, hwide]

theorem dataAdjChain_zero
    {c : Chain}
    (hc : ChainOk c) :
    dataAdjChain c 0 = c := by
  cases c with
  | nil =>
      rfl
  | cons m rest =>
      have hm : m.data ≠ [] := hc.holdsData m (by simp)
      simp [dataAdjChain, rtePktmbufAdj, hm]

/-- Cutting the first mbuf of a suffix of a chain and setting its length again. -/
theorem chainOk_cutHead
    {c tail : Chain} {n : Mbuf} {left : Nat} {len : U32}
    (hc : ChainOk c)
    (hsuf : n :: tail <:+ c)
    (hleft : left = 0 ∨ left < n.data.length)
    (hlen : len = BitVec.ofNat 32 ((chainBytes (n :: tail)).length - left)) :
    ChainOk ({ n with data := n.data.drop left, pktLen := len } :: tail) ∧
      chainBytes ({ n with data := n.data.drop left, pktLen := len } :: tail) =
        (chainBytes (n :: tail)).drop left := by
  have hn : n ∈ c := hsuf.subset (by simp)
  have hnpos := List.length_pos_iff.2 (hc.holdsData n hn)
  have hnlen := hc.dataLen n hn
  have hbytes :
      chainBytes ({ n with data := n.data.drop left, pktLen := len } :: tail) =
        (chainBytes (n :: tail)).drop left := by
    simp only [chainBytes_cons]
    rw [List.drop_append_of_le_length (by omega)]
  refine ⟨⟨by simp, ?_, ?_, ?_⟩, hbytes⟩
  · intro x hx
    rcases List.mem_cons.1 hx with rfl | hx
    · rw [← List.length_pos_iff]
      simp
      omega
    · exact hc.holdsData x (hsuf.subset (by simp [hx]))
  · intro x hx
    rcases List.mem_cons.1 hx with rfl | hx
    · simp
      omega
    · exact hc.dataLen x (hsuf.subset (by simp [hx]))
  · rw [hbytes, List.length_drop]
    exact hlen

/-- Both paths of `data_adj_chain` cut the mbuf that holds the first byte that stays. -/
theorem dataAdjChain_eq
    {c : Chain} {t : Nat}
    (hc : ChainOk c)
    (hlt : t < (chainBytes c).length)
    (hsmall : t < 2 ^ 16)
    (hexact : AdjExact c 0 t) :
    ∃ n tail left,
      skipMbufs c t = (n :: tail, left) ∧
      (left = 0 ∨ left < n.data.length) ∧
      dataAdjChain c (BitVec.ofNat 32 t) =
        { n with
          data := n.data.drop left
          pktLen := BitVec.ofNat 32 ((chainBytes c).length - t) } :: tail := by
  cases c with
  | nil =>
      exact absurd rfl hc.nonempty
  | cons m rest =>
      have hpkt : m.pktLen = BitVec.ofNat 32 (chainBytes (m :: rest)).length := hc.pktLen
      have hmpos := List.length_pos_iff.2 (hc.holdsData m (by simp))
      have hlen : m.pktLen - BitVec.ofNat 32 t =
          BitVec.ofNat 32 ((chainBytes (m :: rest)).length - t) := by
        rw [hpkt, SerialArithmetic.ofNat_sub_ofNat hlt.le]
      by_cases hfast : m.data.length < t
      · -- slow path: whole mbufs go, then the first one that stays is cut
        obtain ⟨n, tail, left, hskip, hleft⟩ := skipMbufs_stop hlt
        have hsuf : n :: tail <:+ m :: rest := by
          simpa [hskip] using skipMbufs_suffix (m :: rest) t
        have hnlen := hc.dataLen n (hsuf.subset (by simp))
        have hcut : rtePktmbufAdj n (BitVec.ofNat 32 left) =
            some { n with
              data := n.data.drop left
              pktLen := n.pktLen - BitVec.ofNat 32 left } := by
          rw [rtePktmbufAdj_eq n (by omega), if_neg (by omega)]
        have htnat : (BitVec.ofNat 32 t).toNat = t := by
          simp
          omega
        refine ⟨n, tail, left, hskip, hleft, ?_⟩
        rw [← hlen]
        simp [dataAdjChain, rtePktmbufAdj_eq m hsmall, hfast, htnat, hskip, hcut]
      · -- fast path: the trim stays inside the first mbuf
        have hcut : rtePktmbufAdj m (BitVec.ofNat 32 t) =
            some { m with
              data := m.data.drop t
              pktLen := m.pktLen - BitVec.ofNat 32 t } := by
          rw [rtePktmbufAdj_eq m hsmall, if_neg hfast]
        rcases Nat.lt_or_ge t m.data.length with hinside | hend
        · have hdata : m.data.drop t ≠ [] := by
            rw [← List.length_pos_iff]
            simp
            omega
          refine ⟨m, rest, t, ?_, Or.inr hinside, ?_⟩
          · rw [skipMbufs, if_neg (by omega)]
          · rw [← hlen]
            simp only [dataAdjChain, hcut, hdata, ne_eq, not_false_eq_true, if_true]
        · have hteq : t = m.data.length := by
            omega
          cases rest with
          | nil =>
              simp at hlt
              omega
          | cons next tail =>
              have hempty : m.data.drop t = [] := by
                simp [hteq]
              have hnext :
                  next.pktLen = BitVec.ofNat 32 (chainBytes (next :: tail)).length := by
                simp only [AdjExact, hmpos, if_true] at hexact
                exact hexact hteq (by simp)
              have hleft :
                  (chainBytes (m :: next :: tail)).length - t =
                    (chainBytes (next :: tail)).length := by
                simp [hteq]
              refine ⟨next, tail, 0, ?_, Or.inl rfl, ?_⟩
              · rw [skipMbufs, if_pos (by omega), skipMbufs, if_neg (by omega), hteq,
                  Nat.sub_self]
              · rw [hleft, ← hnext]
                simp only [dataAdjChain, hcut, hempty, ne_eq, not_true_eq_false, if_false,
                  List.drop_zero]

/-- A trim that keeps some data removes the first bytes and leaves a well-formed chain. -/
theorem dataAdjChain_spec
    {c : Chain} {t : Nat}
    (hc : ChainOk c)
    (hlt : t < (chainBytes c).length)
    (hsmall : t < 2 ^ 16)
    (hexact : AdjExact c 0 t) :
    ChainOk (dataAdjChain c (BitVec.ofNat 32 t)) ∧
      chainBytes (dataAdjChain c (BitVec.ofNat 32 t)) = (chainBytes c).drop t := by
  obtain ⟨n, tail, left, hskip, hleft, heq⟩ := dataAdjChain_eq hc hlt hsmall hexact
  have hsuf : n :: tail <:+ c := by
    simpa [hskip] using skipMbufs_suffix c t
  have hbytes : (chainBytes (n :: tail)).drop left = (chainBytes c).drop t := by
    simpa [hskip] using skipMbufs_bytes c t
  have hcount := congrArg List.length hbytes
  simp only [List.length_drop] at hcount
  rw [heq, ← hbytes]
  exact chainOk_cutHead hc hsuf hleft (by rw [hcount])

theorem adjExact_skipMbufs
    {c : Chain} {t more : Nat}
    (hexact : AdjExact c t (t + more)) :
    AdjExact (skipMbufs c t).1 (skipMbufs c t).2 ((skipMbufs c t).2 + more) := by
  induction c generalizing t with
  | nil =>
      simp [skipMbufs, AdjExact]
  | cons m rest ih =>
      by_cases h : 0 < t ∧ m.data.length ≤ t
      · rw [skipMbufs, if_pos h]
        apply ih
        rw [AdjExact, if_neg (by omega)] at hexact
        rwa [Nat.sub_add_comm h.2] at hexact
      · rw [skipMbufs, if_neg h]
        exact hexact

/-- A second trim is exact on what the first one has left. -/
theorem adjExact_dataAdjChain
    {c : Chain} {t more : Nat}
    (hc : ChainOk c)
    (hlt : t < (chainBytes c).length)
    (hsmall : t < 2 ^ 16)
    (hfirst : AdjExact c 0 t)
    (hsecond : AdjExact c t (t + more)) :
    AdjExact (dataAdjChain c (BitVec.ofNat 32 t)) 0 more := by
  obtain ⟨n, tail, left, hskip, hleft, heq⟩ := dataAdjChain_eq hc hlt hsmall hfirst
  have hsuf : n :: tail <:+ c := by
    simpa [hskip] using skipMbufs_suffix c t
  have hnpos := List.length_pos_iff.2 (hc.holdsData n (hsuf.subset (by simp)))
  have hrest := adjExact_skipMbufs hsecond
  rw [hskip, AdjExact, if_pos (by omega)] at hrest
  rw [heq, AdjExact, if_pos (by simp; omega)]
  intro hmore
  apply hrest
  simp at hmore
  omega

theorem dataMbufMerge_bytes
    {dest : Chain} (src : Chain)
    (hdest : dest ≠ []) :
    chainBytes (dataMbufMerge dest src) = chainBytes dest ++ chainBytes src := by
  cases dest with
  | nil =>
      exact absurd rfl hdest
  | cons d rest =>
      simp [dataMbufMerge]

/-- Merging well-formed chains gives a well-formed chain. -/
theorem dataMbufMerge_wellFormed
    {dest src : Chain}
    (hdest : ChainOk dest)
    (hsrc : ChainOk src) :
    ChainOk (dataMbufMerge dest src) := by
  have hbytes := dataMbufMerge_bytes src hdest.nonempty
  cases dest with
  | nil =>
      exact absurd rfl hdest.nonempty
  | cons d rest =>
      refine ⟨by simp [dataMbufMerge], ?_, ?_, ?_⟩
      · intro x hx
        simp only [dataMbufMerge, List.mem_cons, List.mem_append] at hx
        rcases hx with rfl | hx | hx
        · exact hdest.holdsData d (by simp)
        · exact hdest.holdsData x (by simp [hx])
        · exact hsrc.holdsData x hx
      · intro x hx
        simp only [dataMbufMerge, List.mem_cons, List.mem_append] at hx
        rcases hx with rfl | hx | hx
        · exact hdest.dataLen d (by simp)
        · exact hdest.dataLen x (by simp [hx])
        · exact hsrc.dataLen x hx
      · have hd : d.pktLen = BitVec.ofNat 32 (chainBytes (d :: rest)).length := hdest.pktLen
        rw [hbytes, List.length_append, BitVec.ofNat_add, ← hd, ← hsrc.pktLen]
        rfl

end WellFormed

end MbufChains
end Warp17
