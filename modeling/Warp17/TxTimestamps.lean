import Mathlib.Data.List.GetD
import Warp17.L4Checksum
import Warp17.MbufUserData

/-!
# Timestamps of outgoing packets

Just before a burst is sent, `tstamp_pktloop_tx_pkt_burst` writes the time into every packet
that is marked for it: at the mark of the first mbuf, or at the marks of all mbufs if the
first says that there are several.  After each of them a callback brings the software
checksum up to date; it is `test_update_cksum_tstamp` for every test with one.

The mbufs of a burst may show the same memory: all RAW timestamps of a session are written to the
`ra_tx_tstamp` of its control block.  An offset is followed through the chain by
`data_mbuf_mtod_offset`, which stays in an mbuf for the offset just behind its data, and what
is written runs on in the memory that this mbuf shows.

**Results**
- `load_store`, `mem_store_outside`: reading memory that was written.
- `testUpdateCksumTstamp_spec`: what the callback leaves in the checksum field.
- `tstampSegs_spec`: the packet after all its timestamps.
-/

namespace Warp17
namespace TxTimestamps

open SequenceComparison OnesComplement L4Checksum PackedWords MbufUserData

section Model

/-- Memory: a byte for each allocation and each place in it. -/
abbrev Memory := Nat → Nat → UInt8

/-- What the timestamping reads of an mbuf, which shows the allocation `buf` from `data` on. -/
structure TxMbuf where
  buf : Nat
  data : Nat
  dataLen : Nat
  udata64 : U64

/-- A packet, and the memory that is there for all packets. -/
structure TxPacket where
  mbufs : List TxMbuf
  mem : Memory

/-- `data_mbuf_mtod_offset()`; `none` is the null result. -/
def dataMbufMtodOffset : List TxMbuf → Nat → Option (Nat × Nat)
  | [], _ => none
  | m :: rest, offset =>
      if m.dataLen < offset then dataMbufMtodOffset rest (offset - m.dataLen)
      else some (m.buf, m.data + offset)

/-- The pointer to byte `offset` of the chain that begins with mbuf `seg`. -/
def TxPacket.pointer (pkt : TxPacket) (seg offset : Nat) : Option (Nat × Nat) :=
  dataMbufMtodOffset (pkt.mbufs.drop seg) offset

/-- Write bytes to memory. -/
def TxPacket.store (pkt : TxPacket) (ptr : Nat × Nat) (bs : List UInt8) : TxPacket :=
  { pkt with
    mem := fun j q =>
      if j = ptr.1 ∧ ptr.2 ≤ q ∧ q < ptr.2 + bs.length then bs.getD (q - ptr.2) 0
      else pkt.mem j q }

/-- Read `n` bytes of memory. -/
def TxPacket.load (pkt : TxPacket) (ptr : Nat × Nat) (n : Nat) : List UInt8 :=
  (List.range n).map fun k => pkt.mem ptr.1 (ptr.2 + k)

/-- Read a `uint16_t`. -/
def TxPacket.load16 (pkt : TxPacket) (ptr : Nat × Nat) : U16 :=
  BitVec.ofNat 16 (wordSum (pkt.load ptr 2))

/-- The two words that are written for a time, each in network order, the low one first. -/
def tstampBytes (timestamp : U64) : List UInt8 :=
  (bytes32 (timestamp.truncate 32)).reverse ++
    (bytes32 ((timestamp >>> 32).truncate 32)).reverse

/-- `tstamp_tx_post_cb_t`; `none` is a null dereference. -/
abbrev TstampTxPostCb := TxPacket → Nat → Nat → Nat → Option TxPacket

/-- `__rte_raw_cksum()` with its start value, and `__rte_raw_cksum_reduce()`. -/
abbrev RawCksumReduced := List UInt8 → U16 → U16

variable (rteRawCksum : RawCksumReduced)

/-- `test_update_cksum_tstamp()`. -/
def testUpdateCksumTstamp : TstampTxPostCb := fun mbuf mbufSeg offset size =>
  match mbuf.mbufs with
  | [] => none
  | hdr :: _ =>
      let offsetCk := (dataGetCksumOffset hdr.udata64).toNat
      if offsetCk = 0 then
        some mbuf
      else
        match mbuf.pointer 0 offsetCk, mbuf.pointer mbufSeg offset with
        | some cksumPtr, some tstamp =>
            let cksum := ~~~(mbuf.load16 cksumPtr)
            let cksum := rteRawCksum (mbuf.load tstamp size) cksum
            let cksum := if cksum = 0xFFFF then cksum else ~~~cksum
            some (mbuf.store cksumPtr (bytes16 cksum))
        | _, _ => none

/-- `tstamp_pktloop_tx_pkt()` for mbuf `seg`; `now` is what the clock reads. -/
def tstampPktloopTxPkt (cb : Option TstampTxPostCb) (now : U64) (pkt : TxPacket) (seg : Nat) :
    Option TxPacket :=
  match pkt.mbufs[seg]? with
  | none => none
  | some m =>
      let offset := (dataGetTstampOffset m.udata64).toNat
      let size := (dataGetTstampSize m.udata64).toNat
      match pkt.pointer seg offset with
      | none => none
      | some tstampPtr =>
          let pkt := pkt.store tstampPtr (tstampBytes now)
          match cb with
          | none => some pkt
          | some cb => cb pkt seg offset size

/-- The mbufs of a packet that get a timestamp. -/
def stampedSegs : List TxMbuf → List Nat
  | [] => []
  | hdr :: rest =>
      if !dataIsTstamp hdr.udata64 && !dataIsTstampMulti hdr.udata64 then
        []
      else if dataIsTstampMulti hdr.udata64 then
        (List.range (hdr :: rest).length).filter fun j =>
          (hdr :: rest)[j]?.any fun m => dataIsTstamp m.udata64
      else
        [0]

/-- The timestamps of one packet, from the `n`-th reading of the clock on. -/
def tstampSegs (cb : Option TstampTxPostCb) (clock : Nat → U64) :
    List Nat → Nat → TxPacket → Option TxPacket
  | [], _, pkt => some pkt
  | seg :: segs, n, pkt =>
      match tstampPktloopTxPkt cb (clock n) pkt seg with
      | none => none
      | some pkt => tstampSegs cb clock segs (n + 1) pkt

/-- `tstamp_pktloop_tx_pkt_burst()`: what the burst leaves in memory. -/
def tstampPktloopTxPktBurst (cb : Option TstampTxPostCb) (clock : Nat → U64) :
    List (List TxMbuf) → Nat → Memory → Option Memory
  | [], _, mem => some mem
  | mbufs :: rest, n, mem =>
      match tstampSegs cb clock (stampedSegs mbufs) n ⟨mbufs, mem⟩ with
      | none => none
      | some out =>
          tstampPktloopTxPktBurst cb clock rest (n + (stampedSegs mbufs).length) out.mem

end Model

section Memory

variable (pkt : TxPacket)

@[simp] theorem store_mbufs
    (ptr : Nat × Nat) (bs : List UInt8) :
    (pkt.store ptr bs).mbufs = pkt.mbufs := by
  rfl

@[simp] theorem store_pointer
    (ptr : Nat × Nat) (bs : List UInt8) (seg offset : Nat) :
    (pkt.store ptr bs).pointer seg offset = pkt.pointer seg offset := by
  rfl

theorem mem_store_inside
    {ptr : Nat × Nat} {bs : List UInt8} {k : Nat}
    (hk : k < bs.length) :
    (pkt.store ptr bs).mem ptr.1 (ptr.2 + k) = bs.getD k 0 := by
  simp [TxPacket.store, hk]

theorem mem_store_outside
    {ptr : Nat × Nat} {bs : List UInt8} {j q : Nat}
    (hout : ¬ (j = ptr.1 ∧ ptr.2 ≤ q ∧ q < ptr.2 + bs.length)) :
    (pkt.store ptr bs).mem j q = pkt.mem j q := by
  simp only [TxPacket.store, hout, if_false]

/-- What was written is read back. -/
theorem load_store
    (ptr : Nat × Nat) (bs : List UInt8) :
    (pkt.store ptr bs).load ptr bs.length = bs := by
  apply List.ext_getElem
  · simp [TxPacket.load]
  · intro k hk hk'
    simp only [TxPacket.load, List.getElem_map, List.getElem_range]
    rw [mem_store_inside pkt hk', List.getD_eq_getElem _ _ hk']

theorem load_congr
    {pkt pkt' : TxPacket} {ptr : Nat × Nat} {n : Nat}
    (h : ∀ k < n, pkt'.mem ptr.1 (ptr.2 + k) = pkt.mem ptr.1 (ptr.2 + k)) :
    pkt'.load ptr n = pkt.load ptr n := by
  rw [TxPacket.load, TxPacket.load, List.map_inj_left]
  exact fun k hk => h k (List.mem_range.1 hk)

theorem load16_store
    (ptr : Nat × Nat) (x : U16) :
    (pkt.store ptr (bytes16 x)).load16 ptr = x := by
  have hload : (pkt.store ptr (bytes16 x)).load ptr 2 = bytes16 x :=
    load_store pkt ptr (bytes16 x)
  rw [TxPacket.load16, hload, wordSum_bytes16, BitVec.ofNat_toNat, BitVec.setWidth_eq]

@[simp] theorem bytes16_length
    (x : U16) :
    (bytes16 x).length = 2 := by
  rfl

@[simp] theorem tstampBytes_length
    (t : U64) :
    (tstampBytes t).length = 8 := by
  rfl

end Memory

section Stamps

/-- Where a timestamp is written, and its bytes. -/
abbrev Stamp := (Nat × Nat) × List UInt8

/-- The timestamp covers byte `q` of the memory of mbuf `j`. -/
def Stamp.Covers (s : Stamp) (j q : Nat) : Prop :=
  j = s.1.1 ∧ s.1.2 ≤ q ∧ q < s.1.2 + s.2.length

instance (s : Stamp) (j q : Nat) : Decidable (s.Covers j q) :=
  inferInstanceAs (Decidable (_ ∧ _ ∧ _))

/-- What a byte becomes when the timestamps are written one after the other. -/
def stampByte : List Stamp → Nat → Nat → UInt8 → UInt8
  | [], _, _, b => b
  | s :: rest, j, q, b =>
      stampByte rest j q (if s.Covers j q then s.2.getD (q - s.1.2) 0 else b)

/-- The pointer that is computed for the mark of an mbuf. -/
def stampPointer (mbufs : List TxMbuf) (seg : Nat) : Option (Nat × Nat) :=
  mbufs[seg]?.bind fun m =>
    dataMbufMtodOffset (mbufs.drop seg) (dataGetTstampOffset m.udata64).toNat

/-- The timestamps of some mbufs, from the `n`-th reading of the clock on. -/
def stamps (mbufs : List TxMbuf) (clock : Nat → U64) : List Nat → Nat → List Stamp
  | [], _ => []
  | seg :: segs, n =>
      match stampPointer mbufs seg with
      | none => stamps mbufs clock segs (n + 1)
      | some ptr => (ptr, tstampBytes (clock n)) :: stamps mbufs clock segs (n + 1)

/-- The sum of the timestamps, each summed as if it began at an even offset. -/
def stampSum (l : List Stamp) : Nat :=
  (l.map fun s => wordSum s.2).sum

theorem stampByte_uncovered
    {l : List Stamp} {j q : Nat}
    (h : ∀ s ∈ l, ¬ s.Covers j q) (b : UInt8) :
    stampByte l j q b = b := by
  induction l generalizing b with
  | nil =>
      rfl
  | cons s rest ih =>
      rw [stampByte, if_neg (h s (by simp))]
      exact ih (fun t ht => h t (by simp [ht])) b

/-- Over zeros the timestamps are added to what is there. -/
theorem stampByte_toNat
    {l : List Stamp} {j q : Nat} {b : UInt8}
    (h : (∃ s ∈ l, s.Covers j q) → b = 0) :
    (stampByte l j q b).toNat = b.toNat + (stampByte l j q 0).toNat := by
  by_cases hcover : ∃ s ∈ l, s.Covers j q
  · rw [h hcover]
    simp
  · have hnone : ∀ s ∈ l, ¬ s.Covers j q := fun s hs hc => hcover ⟨s, hs, hc⟩
    rw [stampByte_uncovered hnone, stampByte_uncovered hnone]
    simp

theorem stampByte_append
    (l l' : List Stamp) (j q : Nat) (b : UInt8) :
    stampByte (l ++ l') j q b = stampByte l' j q (stampByte l j q b) := by
  induction l generalizing b with
  | nil =>
      rfl
  | cons s l ih =>
      rw [List.cons_append, stampByte, stampByte, ih]

end Stamps

section Run

variable {rteRawCksum : RawCksumReduced}

/-- What the code relies on: the folded one's-complement sum, begun with the start value. -/
def RawCksumOk (rteRawCksum : RawCksumReduced) : Prop :=
  ∀ buf init, (rteRawCksum buf init).toNat = folded (init.toNat + wordSum buf)

/-- Byte `offset` of the first mbuf. -/
def headerPtr (mbufs : List TxMbuf) (offset : Nat) : Nat × Nat :=
  match mbufs with
  | [] => (0, offset)
  | hdr :: _ => (hdr.buf, hdr.data + offset)

/-- The recorded checksum field, in the first mbuf. -/
structure CksumField (mbufs : List TxMbuf) (ck : Nat) : Prop where
  recorded : ∀ m ∈ mbufs.head?, (dataGetCksumOffset m.udata64).toNat = ck
  inHeader : ∀ m ∈ mbufs.head?, ck + 2 ≤ m.dataLen
  pos : 0 < ck
  nonempty : mbufs ≠ []

/-- A mark inside the packet, for a timestamp of 8 bytes. -/
structure Stampable (mbufs : List TxMbuf) (seg : Nat) (ptr : Nat × Nat) : Prop where
  pointer : stampPointer mbufs seg = some ptr
  size : ∀ m ∈ mbufs[seg]?, (dataGetTstampSize m.udata64).toNat = 8

/-- A timestamp is not written over the checksum field. -/
def Beside (field ptr : Nat × Nat) : Prop :=
  ∀ k < 2, ¬ (field.1 = ptr.1 ∧ ptr.2 ≤ field.2 + k ∧ field.2 + k < ptr.2 + 8)

theorem not_cast
    (x : U16) :
    ((~~~x).toNat : Ones) = -(x.toNat : Ones) := by
  have hx := x.isLt
  have hnot : (~~~x).toNat = 65535 - x.toNat := BitVec.toNat_not
  rw [hnot, complement_cast (by omega)]

/-- The callback takes the sum of the bytes at the mark from the checksum. -/
theorem testUpdateCksumTstamp_spec
    (hraw : RawCksumOk rteRawCksum)
    {pkt : TxPacket} {ck seg offset size : Nat} {ptr : Nat × Nat}
    (hfield : CksumField pkt.mbufs ck)
    (hptr : pkt.pointer seg offset = some ptr) :
    ∃ x : U16, testUpdateCksumTstamp rteRawCksum pkt seg offset size =
        some (pkt.store (headerPtr pkt.mbufs ck) (bytes16 x)) ∧ 0 < x.toNat ∧
      (x.toNat : Ones) =
        ((pkt.load16 (headerPtr pkt.mbufs ck)).toNat : Ones) - wordSum (pkt.load ptr size) := by
  obtain ⟨hdr, rest, hm⟩ := List.exists_cons_of_ne_nil hfield.nonempty
  have hrec := hfield.recorded hdr (by simp [hm])
  have hin := hfield.inHeader hdr (by simp [hm])
  have hck : pkt.pointer 0 ck = some (headerPtr pkt.mbufs ck) := by
    rw [TxPacket.pointer, hm, List.drop_zero, dataMbufMtodOffset, if_neg (by omega)]
    rfl
  -- the complemented sum
  have hsum := hraw (pkt.load ptr size) (~~~(pkt.load16 (headerPtr pkt.mbufs ck)))
  generalize hc :
    rteRawCksum (pkt.load ptr size) (~~~(pkt.load16 (headerPtr pkt.mbufs ck))) = c at hsum
  have hcast : (c.toNat : Ones) =
      -((pkt.load16 (headerPtr pkt.mbufs ck)).toNat : Ones) + wordSum (pkt.load ptr size) := by
    rw [hsum, folded_cast]
    push_cast
    rw [not_cast]
  refine ⟨if c = 0xFFFF then c else ~~~c, ?_, ?_, ?_⟩
  · simp only [testUpdateCksumTstamp, hm, hrec, hck, hptr]
    rw [if_neg hfield.pos.ne', ← hm, hc]
  · split_ifs with hones
    · rw [hones]
      decide
    · have hne : c.toNat ≠ 65535 := fun h => hones (BitVec.eq_of_toNat_eq h)
      have hlt := c.isLt
      rw [BitVec.toNat_not]
      omega
  · have hneg : ((if c = 0xFFFF then c else ~~~c).toNat : Ones) = -(c.toNat : Ones) := by
      split_ifs with hones
      · rw [hones]
        decide
      · exact not_cast c
    rw [hneg, hcast]
    ring

/-- The packet after all its timestamps, and what its checksum field holds then. -/
theorem tstampSegs_spec
    (hraw : RawCksumOk rteRawCksum)
    (clock : Nat → U64)
    {pkt : TxPacket} {ck : Nat} {segs : List Nat} (n : Nat)
    (hfield : CksumField pkt.mbufs ck)
    (hsegs : ∀ seg ∈ segs, ∃ ptr, Stampable pkt.mbufs seg ptr ∧
      Beside (headerPtr pkt.mbufs ck) ptr)
    (hpos : 0 < (pkt.load16 (headerPtr pkt.mbufs ck)).toNat) :
    ∃ out, tstampSegs (some (testUpdateCksumTstamp rteRawCksum)) clock segs n pkt = some out ∧
      out.mbufs = pkt.mbufs ∧ 0 < (out.load16 (headerPtr pkt.mbufs ck)).toNat ∧
      ((out.load16 (headerPtr pkt.mbufs ck)).toNat : Ones) =
        ((pkt.load16 (headerPtr pkt.mbufs ck)).toNat : Ones) -
          stampSum (stamps pkt.mbufs clock segs n) ∧
      ∀ j q, ¬ (j = (headerPtr pkt.mbufs ck).1 ∧ (headerPtr pkt.mbufs ck).2 ≤ q ∧
          q < (headerPtr pkt.mbufs ck).2 + 2) →
        out.mem j q = stampByte (stamps pkt.mbufs clock segs n) j q (pkt.mem j q) := by
  induction segs generalizing pkt n with
  | nil =>
      exact ⟨pkt, rfl, rfl, hpos, by simp [stamps, stampSum], fun _ _ _ => rfl⟩
  | cons seg segs ih =>
      obtain ⟨ptr, hstamp, hbeside⟩ := hsegs seg (by simp)
      obtain ⟨m, hm, hpointer⟩ := Option.bind_eq_some_iff.1 hstamp.pointer
      have hsize := hstamp.size m hm
      have hat : pkt.pointer seg (dataGetTstampOffset m.udata64).toNat = some ptr := hpointer
      obtain ⟨x, hx, hxpos, hxcast⟩ :=
        @testUpdateCksumTstamp_spec _ hraw (pkt.store ptr (tstampBytes (clock n))) ck seg
          (dataGetTstampOffset m.udata64).toNat (dataGetTstampSize m.udata64).toNat ptr
          hfield hpointer
      rw [store_mbufs] at hx hxcast
      -- the timestamp is not written over the checksum
      have hkept : (pkt.store ptr (tstampBytes (clock n))).load16 (headerPtr pkt.mbufs ck) =
          pkt.load16 (headerPtr pkt.mbufs ck) := by
        rw [TxPacket.load16, TxPacket.load16]
        congr 2
        refine load_congr fun k hk => mem_store_outside pkt ?_
        exact hbeside k hk
      have hread : (pkt.store ptr (tstampBytes (clock n))).load ptr 8 = tstampBytes (clock n) :=
        load_store pkt ptr (tstampBytes (clock n))
      rw [hkept, hsize, hread] at hxcast
      have hstep : tstampPktloopTxPkt (some (testUpdateCksumTstamp rteRawCksum)) (clock n) pkt
          seg = some ((pkt.store ptr (tstampBytes (clock n))).store (headerPtr pkt.mbufs ck)
            (bytes16 x)) := by
        simp only [tstampPktloopTxPkt, Option.mem_def.1 hm, hat]
        exact hx
      have hx16 := load16_store (pkt.store ptr (tstampBytes (clock n))) (headerPtr pkt.mbufs ck) x
      obtain ⟨out, hrun, hmbufs, houtpos, houtcast, houtmem⟩ :=
        @ih ((pkt.store ptr (tstampBytes (clock n))).store (headerPtr pkt.mbufs ck) (bytes16 x))
          (n + 1) hfield (fun s hs => hsegs s (by simp [hs]))
          (by rw [store_mbufs, store_mbufs, hx16]; exact hxpos)
      simp only [store_mbufs] at hmbufs houtpos houtcast houtmem
      have hall : stamps pkt.mbufs clock (seg :: segs) n =
          (ptr, tstampBytes (clock n)) :: stamps pkt.mbufs clock segs (n + 1) := by
        rw [stamps, hstamp.pointer]
      refine ⟨out, ?_, hmbufs, houtpos, ?_, ?_⟩
      · rw [tstampSegs, hstep]
        exact hrun
      · rw [houtcast, hx16, hxcast, hall]
        simp only [stampSum, List.map_cons, List.sum_cons]
        push_cast
        ring
      · intro j q hout
        rw [houtmem j q hout, hall, stampByte]
        congr 1
        rw [mem_store_outside _ (by simpa using hout)]
        rfl

end Run

end TxTimestamps
end Warp17
