import Warp17.TxTimestamps

/-!
# Checksums of packets with timestamps

A packet leaves the stack with zeros where its timestamps go and with a checksum that is
right for them.  The callback updates the checksum from the bytes of a timestamp alone.  It
sums them as if they began at an even offset of the checksummed data and were all part of
it, so a timestamp at an odd offset, one that runs out of its mbuf, and one that a later one
overwrites are counted wrong.  A later one may be that of another packet of the burst, where both
show the same memory.

**Results**
- `burst_spec`: what a burst leaves in memory.
- `cksumRight_iff`: each packet of a burst after all timestamps.
- `timestampsKept_iff_odd`: what that means for timestamps that are sent as they were written.
- `txBurst_cksum_iff`: both together.
-/

namespace Warp17
namespace TimestampCksum

open SequenceComparison OnesComplement L4Checksum PackedWords MbufUserData TxTimestamps

section Coverage

/-- The bytes of a packet in memory, in order. -/
def txPositions : List TxMbuf → List (Nat × Nat)
  | [] => []
  | m :: rest => (List.range m.dataLen).map (fun q => (m.buf, m.data + q)) ++ txPositions rest

/-- What a checksum covers: the pseudo-header, and `len` bytes of the packet from `start` on. -/
structure Coverage where
  psdHdr : List UInt8
  start : Nat
  len : Nat

/-- The bytes of the packet that the checksum covers. -/
def Coverage.positions (c : Coverage) (mbufs : List TxMbuf) : List (Nat × Nat) :=
  ((txPositions mbufs).drop c.start).take c.len

/-- Their values in memory. -/
def Coverage.region (c : Coverage) (pkt : TxPacket) : List UInt8 :=
  (c.positions pkt.mbufs).map fun x => pkt.mem x.1 x.2

/-- The field at `ck` is the RFC 1071 checksum of the packet with a zero in its place. -/
def CksumRight (c : Coverage) (ck : Nat) (pkt : TxPacket) : Prop :=
  networkOrder (pkt.load16 (headerPtr pkt.mbufs ck)) =
    transmitted (rfc1071 (c.psdHdr ++ c.region (pkt.store (headerPtr pkt.mbufs ck) [0, 0])))

/-- The timestamps `all`, where they end up in the checksummed data, have the sum that the callback
counts for the packet's `own`. -/
def TimestampsKept (c : Coverage) (mbufs : List TxMbuf) (all own : List Stamp) : Prop :=
  wordSum ((c.positions mbufs).map fun x => stampByte all x.1 x.2 0) ≡ stampSum own [MOD 65535]

theorem mem_positions
    {c : Coverage} {mbufs : List TxMbuf} {x : Nat × Nat}
    (hx : x ∈ c.positions mbufs) :
    x ∈ txPositions mbufs :=
  List.mem_of_mem_drop (List.mem_of_mem_take hx)

/-- A right checksum is the negated sum, and is not zero. -/
theorem cksumRight_cast_iff
    {c : Coverage} {ck : Nat} {pkt : TxPacket}
    (heven : oddLength c.psdHdr = false)
    (hpos : 0 < (pkt.load16 (headerPtr pkt.mbufs ck)).toNat) :
    CksumRight c ck pkt ↔
      ((pkt.load16 (headerPtr pkt.mbufs ck)).toNat : Ones) =
        -((wordSum c.psdHdr : Ones) +
          wordSum (c.region (pkt.store (headerPtr pkt.mbufs ck) [0, 0]))) := by
  rw [CksumRight, networkOrder_eq_iff hpos, wordSum_append, heven]
  rfl

theorem CksumRight.pos
    {c : Coverage} {ck : Nat} {pkt : TxPacket}
    (h : CksumRight c ck pkt) :
    0 < (pkt.load16 (headerPtr pkt.mbufs ck)).toNat := by
  rw [Nat.pos_iff_ne_zero]
  intro hzero
  rw [CksumRight, networkOrder_eq, hzero] at h
  have hpos := @transmitted_pos
    (rfc1071 (c.psdHdr ++ c.region (pkt.store (headerPtr pkt.mbufs ck) [0, 0])))
  omega

end Coverage

/-! ## Bursts -/

section Burst

/-- A packet of a burst, with what its checksum covers and where it is. -/
structure Outgoing where
  mbufs : List TxMbuf
  coverage : Coverage
  ck : Nat

/-- The timestamps of a packet, from the `n`-th reading of the clock on. -/
def Outgoing.stamps (x : Outgoing) (clock : Nat → U64) (n : Nat) : List Stamp :=
  TxTimestamps.stamps x.mbufs clock (stampedSegs x.mbufs) n

/-- The timestamps of a burst, in the order in which they are written. -/
def burstStamps (clock : Nat → U64) : List Outgoing → Nat → List Stamp
  | [], _ => []
  | x :: xs, n =>
      x.stamps clock n ++ burstStamps clock xs (n + (stampedSegs x.mbufs).length)

/-- The readings of the clock for the packets in front. -/
def readsBefore (xs : List Outgoing) (i : Nat) : Nat :=
  ((xs.take i).map fun x => (stampedSegs x.mbufs).length).sum

/-- The checksum field has byte `q` of the allocation `j`. -/
def Outgoing.InField (x : Outgoing) (j q : Nat) : Prop :=
  j = (headerPtr x.mbufs x.ck).1 ∧ (headerPtr x.mbufs x.ck).2 ≤ q ∧
    q < (headerPtr x.mbufs x.ck).2 + 2

/-- A timestamp of the packet is written to byte `q` of the allocation `j`. -/
def Outgoing.Writes (x : Outgoing) (j q : Nat) : Prop :=
  ∃ seg ∈ stampedSegs x.mbufs, ∃ ptr, stampPointer x.mbufs seg = some ptr ∧
    j = ptr.1 ∧ ptr.2 ≤ q ∧ q < ptr.2 + 8

/-- The packet is marked properly. -/
structure Outgoing.Marked (x : Outgoing) : Prop where
  field : CksumField x.mbufs x.ck
  evenPsdHdr : oddLength x.coverage.psdHdr = false
  marks : ∀ seg ∈ stampedSegs x.mbufs, ∃ ptr, Stampable x.mbufs seg ptr

/-- Packets with headers of their own, and with checksums that are right for zeros wherever one of
them gets a timestamp. -/
structure BurstOk (mem : Memory) (xs : List Outgoing) : Prop where
  marked : ∀ x ∈ xs, x.Marked
  right : ∀ x ∈ xs, CksumRight x.coverage x.ck ⟨x.mbufs, mem⟩
  headers : xs.Pairwise fun x y =>
    (∀ p ∈ txPositions x.mbufs, ¬ y.InField p.1 p.2) ∧
      ∀ p ∈ txPositions y.mbufs, ¬ x.InField p.1 p.2
  beside : ∀ x ∈ xs, ∀ y ∈ xs, ∀ j q, x.InField j q → ¬ y.Writes j q
  zeros : ∀ x ∈ xs, ∀ y ∈ xs, ∀ p ∈ txPositions x.mbufs, y.Writes p.1 p.2 → mem p.1 p.2 = 0

variable {clock : Nat → U64} {n : Nat} {mem : Memory} {xs : List Outgoing} {x : Outgoing}

/-- Every timestamp is one of a marked mbuf. -/
theorem mem_stamps
    {mbufs : List TxMbuf} {segs : List Nat} {s : Stamp}
    (hs : s ∈ stamps mbufs clock segs n) :
    ∃ seg ∈ segs, stampPointer mbufs seg = some s.1 ∧ s.2.length = 8 := by
  induction segs generalizing n with
  | nil =>
      cases hs
  | cons seg segs ih =>
      rw [stamps] at hs
      split at hs
      · obtain ⟨seg', hseg', hrest⟩ := ih hs
        exact ⟨seg', by simp [hseg'], hrest⟩
      · rename_i ptr hptr
        rcases List.mem_cons.1 hs with rfl | hs
        · exact ⟨seg, by simp, hptr, rfl⟩
        · obtain ⟨seg', hseg', hrest⟩ := ih hs
          exact ⟨seg', by simp [hseg'], hrest⟩

theorem Outgoing.writes_of_covers
    {s : Stamp} {j q : Nat}
    (hs : s ∈ x.stamps clock n)
    (hcovers : s.Covers j q) :
    x.Writes j q := by
  obtain ⟨seg, hseg, hptr, hlen⟩ := mem_stamps hs
  rw [Stamp.Covers, hlen] at hcovers
  exact ⟨seg, hseg, s.1, hptr, hcovers⟩

theorem writes_of_burstCovers
    {s : Stamp} {j q : Nat}
    (hs : s ∈ burstStamps clock xs n)
    (hcovers : s.Covers j q) :
    ∃ y ∈ xs, y.Writes j q := by
  induction xs generalizing n with
  | nil =>
      cases hs
  | cons x xs ih =>
      rcases List.mem_append.1 hs with hfirst | hrest
      · exact ⟨x, List.mem_cons_self, x.writes_of_covers hfirst hcovers⟩
      · obtain ⟨y, hy, hwrites⟩ := ih hrest
        exact ⟨y, List.mem_cons_of_mem _ hy, hwrites⟩

/-- Where nothing is written the timestamps of a burst change nothing. -/
theorem stampByte_burst
    {j q : Nat}
    (h : ∀ y ∈ xs, ¬ y.Writes j q)
    (b : UInt8) :
    stampByte (burstStamps clock xs n) j q b = b := by
  refine stampByte_uncovered (fun s hs hcovers => ?_) b
  obtain ⟨y, hy, hwrites⟩ := writes_of_burstCovers hs hcovers
  exact h y hy hwrites

theorem Outgoing.stampByte_own
    {j q : Nat}
    (h : ¬ x.Writes j q)
    (b : UInt8) :
    stampByte (x.stamps clock n) j q b = b :=
  stampByte_uncovered (fun _ hs hcovers => h (x.writes_of_covers hs hcovers)) b

/-- The field of a packet is among its bytes. -/
theorem Outgoing.field_mem
    {j q : Nat}
    (h : CksumField x.mbufs x.ck)
    (hfield : x.InField j q) :
    (j, q) ∈ txPositions x.mbufs := by
  obtain ⟨hdr, rest, hm⟩ := List.exists_cons_of_ne_nil h.nonempty
  have hin := h.inHeader hdr (by simp [hm])
  have hptr : headerPtr x.mbufs x.ck = (hdr.buf, hdr.data + x.ck) := by
    rw [hm]
    rfl
  rw [Outgoing.InField, hptr] at hfield
  obtain ⟨rfl, hlow, hhigh⟩ := hfield
  dsimp only at hlow hhigh
  rw [hm, txPositions, List.mem_append]
  refine Or.inl (List.mem_map.2 ⟨q - hdr.data, List.mem_range.2 (by omega), ?_⟩)
  rw [Nat.add_sub_cancel' (by omega)]

/-- Reading a field whose bytes are the same in two memories. -/
theorem load16_field
    {mem' : Memory}
    (h : ∀ j q, x.InField j q → mem' j q = mem j q) :
    TxPacket.load16 ⟨x.mbufs, mem'⟩ (headerPtr x.mbufs x.ck) =
      TxPacket.load16 ⟨x.mbufs, mem⟩ (headerPtr x.mbufs x.ck) := by
  rw [TxPacket.load16, TxPacket.load16]
  congr 2
  exact load_congr fun k hk => h _ _ ⟨rfl, by omega, by omega⟩

theorem BurstOk.sublist
    {xs' : List Outgoing}
    (h : BurstOk mem xs)
    (hsub : xs'.Sublist xs) :
    BurstOk mem xs' :=
  ⟨fun x hx => h.marked x (hsub.subset hx), fun x hx => h.right x (hsub.subset hx),
    h.headers.sublist hsub,
    fun x hx y hy => h.beside x (hsub.subset hx) y (hsub.subset hy),
    fun x hx y hy => h.zeros x (hsub.subset hx) y (hsub.subset hy)⟩

end Burst

section Spec

variable {rteRawCksum : RawCksumReduced} {xs : List Outgoing} {x : Outgoing}

/-- By induction on the burst: outside the checksum fields memory has the timestamps, and from each
field the sum of its packet's own is taken. -/
theorem burst_spec
    (hraw : RawCksumOk rteRawCksum)
    (clock : Nat → U64) (n : Nat) {mem : Memory}
    (hmarked : ∀ x ∈ xs, x.Marked)
    (hapart : xs.Pairwise fun x y => ∀ j q, x.InField j q → ¬ y.InField j q)
    (hbeside : ∀ x ∈ xs, ∀ y ∈ xs, ∀ j q, x.InField j q → ¬ y.Writes j q)
    (hpos : ∀ x ∈ xs,
      0 < (TxPacket.load16 ⟨x.mbufs, mem⟩ (headerPtr x.mbufs x.ck)).toNat) :
    ∃ mem',
      tstampPktloopTxPktBurst (some (testUpdateCksumTstamp rteRawCksum)) clock
          (xs.map Outgoing.mbufs) n mem = some mem' ∧
      (∀ j q, (∀ x ∈ xs, ¬ x.InField j q) →
        mem' j q = stampByte (burstStamps clock xs n) j q (mem j q)) ∧
      ∀ (i : Nat) (x : Outgoing), xs[i]? = some x →
        0 < (TxPacket.load16 ⟨x.mbufs, mem'⟩ (headerPtr x.mbufs x.ck)).toNat ∧
        ((TxPacket.load16 ⟨x.mbufs, mem'⟩ (headerPtr x.mbufs x.ck)).toNat : Ones) =
          ((TxPacket.load16 ⟨x.mbufs, mem⟩ (headerPtr x.mbufs x.ck)).toNat : Ones) -
            stampSum (x.stamps clock (n + readsBefore xs i)) := by
  induction xs generalizing mem n with
  | nil =>
      exact ⟨mem, rfl, fun _ _ _ => rfl, fun i x hx => by simp at hx⟩
  | cons x xs ih =>
      rw [List.pairwise_cons] at hapart
      have hx : x ∈ x :: xs := List.mem_cons_self
      have htail : ∀ y ∈ xs, y ∈ x :: xs := fun y hy => List.mem_cons_of_mem _ hy
      obtain ⟨out, hrun, hmbufs, houtpos, houtcast, houtmem⟩ :=
        @tstampSegs_spec _ hraw clock ⟨x.mbufs, mem⟩ x.ck (stampedSegs x.mbufs) n
          (hmarked x hx).field
          (fun seg hseg => by
            obtain ⟨ptr, hstamp⟩ := (hmarked x hx).marks seg hseg
            refine ⟨ptr, hstamp, fun k hk hin => ?_⟩
            exact hbeside x hx x hx (headerPtr x.mbufs x.ck).1 ((headerPtr x.mbufs x.ck).2 + k)
              ⟨rfl, by omega, by omega⟩ ⟨seg, hseg, ptr, hstamp.pointer, hin⟩)
          (hpos x hx)
      have hbytes : ∀ j q, ¬ x.InField j q →
          out.mem j q = stampByte (x.stamps clock n) j q (mem j q) := houtmem
      -- the fields behind are as they were
      have hfields : ∀ y ∈ xs, ∀ j q, y.InField j q → out.mem j q = mem j q := by
        intro y hy j q hin
        rw [hbytes j q fun hfield => hapart.1 y hy j q hfield hin]
        exact Outgoing.stampByte_own (hbeside y (htail y hy) x hx j q hin) _
      obtain ⟨mem', hrest, hmem, hall⟩ :=
        @ih (n + (stampedSegs x.mbufs).length) out.mem (fun y hy => hmarked y (htail y hy))
          hapart.2 (fun y hy z hz => hbeside y (htail y hy) z (htail z hz))
          (fun y hy => by
            rw [load16_field (hfields y hy)]
            exact hpos y (htail y hy))
      -- and this field stays as it is
      have hfield : ∀ j q, x.InField j q → mem' j q = out.mem j q := by
        intro j q hin
        rw [hmem j q fun y hy => hapart.1 y hy j q hin]
        exact stampByte_burst (fun y hy => hbeside x hx y (htail y hy) j q hin) _
      refine ⟨mem', ?_, fun j q hout => ?_, fun i y hy => ?_⟩
      · rw [List.map_cons, tstampPktloopTxPktBurst, hrun]
        exact hrest
      · rw [hmem j q fun y hy => hout y (htail y hy), hbytes j q (hout x hx), burstStamps,
          stampByte_append]
      · cases i with
        | zero =>
            cases hy
            rw [load16_field hfield, readsBefore, List.take_zero]
            obtain ⟨mbufs, outMem⟩ := out
            obtain rfl : mbufs = x.mbufs := hmbufs
            exact ⟨houtpos, houtcast⟩
        | succ i =>
            have hreads : n + readsBefore (x :: xs) (i + 1) =
                n + (stampedSegs x.mbufs).length + readsBefore xs i := by
              simp [readsBefore, Nat.add_assoc]
            have hy' : xs[i]? = some y := by simpa using hy
            have hmem' := List.mem_of_getElem? hy'
            rw [hreads, ← load16_field (hfields y hmem')]
            exact hall i y hy'

/-- The timestamps are added to the checksummed data, whatever the checksum field holds. -/
theorem wordSum_region_stamped
    {clock : Nat → U64} {n : Nat} {mem mem' : Memory}
    (hok : BurstOk mem xs)
    (hx : x ∈ xs)
    (hothers : ∀ p ∈ txPositions x.mbufs, ¬ x.InField p.1 p.2 → ∀ y ∈ xs, ¬ y.InField p.1 p.2)
    (hmem : ∀ j q, (∀ y ∈ xs, ¬ y.InField j q) →
      mem' j q = stampByte (burstStamps clock xs n) j q (mem j q)) :
    wordSum (x.coverage.region
        (TxPacket.store ⟨x.mbufs, mem'⟩ (headerPtr x.mbufs x.ck) [0, 0])) =
      wordSum (x.coverage.region
        (TxPacket.store ⟨x.mbufs, mem⟩ (headerPtr x.mbufs x.ck) [0, 0])) +
        wordSum ((x.coverage.positions x.mbufs).map fun p =>
          stampByte (burstStamps clock xs n) p.1 p.2 0) := by
  refine wordSum_map_add fun p hp => ?_
  have hin := mem_positions hp
  by_cases hfield : x.InField p.1 p.2
  · -- the checksum field itself
    have hzero : ∀ m : Memory,
        (TxPacket.store ⟨x.mbufs, m⟩ (headerPtr x.mbufs x.ck) [0, 0]).mem p.1 p.2 = 0 := by
      intro m
      have hstore := @mem_store_inside ⟨x.mbufs, m⟩ (headerPtr x.mbufs x.ck) [0, 0]
        (p.2 - (headerPtr x.mbufs x.ck).2) (by have := hfield.2.2; simp; omega)
      rw [Nat.add_sub_cancel' hfield.2.1, ← hfield.1] at hstore
      rw [hstore]
      rcases (by have := hfield.2.2; omega : p.2 - (headerPtr x.mbufs x.ck).2 = 0 ∨
        p.2 - (headerPtr x.mbufs x.ck).2 = 1) with hk | hk <;> rw [hk] <;> rfl
    rw [hzero, hzero, stampByte_burst fun y hy => hok.beside x hx y hy _ _ hfield]
    rfl
  · have hout : ∀ m : Memory,
        (TxPacket.store ⟨x.mbufs, m⟩ (headerPtr x.mbufs x.ck) [0, 0]).mem p.1 p.2 =
          m p.1 p.2 := fun m => mem_store_outside _ hfield
    rw [hout, hout, hmem _ _ (hothers p hin hfield)]
    refine stampByte_toNat ?_
    rintro ⟨s, hs, hcovers⟩
    obtain ⟨y, hy, hwrites⟩ := writes_of_burstCovers hs hcovers
    exact hok.zeros x hx y hy p hin hwrites

/-- What is not in a packet's own field is in none. -/
theorem BurstOk.field_elsewhere
    {mem : Memory}
    (hok : BurstOk mem xs)
    (hx : x ∈ xs)
    {p : Nat × Nat}
    (hp : p ∈ txPositions x.mbufs)
    (hfield : ¬ x.InField p.1 p.2) :
    ∀ y ∈ xs, ¬ y.InField p.1 p.2 := by
  have hall := List.Pairwise.forall_of_forall_of_flip
    (R := fun x y : Outgoing =>
      ∀ p ∈ txPositions x.mbufs, ¬ x.InField p.1 p.2 → ¬ y.InField p.1 p.2)
    (fun _ _ _ _ h => h) (hok.headers.imp fun h p hp _ => h.1 p hp)
    (hok.headers.imp fun h p hp _ => h.2 p hp)
  exact fun y hy => hall hx hy p hp hfield

/-- Each packet of a burst: its checksum stays right exactly if its timestamps are counted right. -/
theorem cksumRight_iff
    (hraw : RawCksumOk rteRawCksum)
    (clock : Nat → U64) (n : Nat) {mem : Memory}
    (hok : BurstOk mem xs) :
    ∃ mem',
      tstampPktloopTxPktBurst (some (testUpdateCksumTstamp rteRawCksum)) clock
          (xs.map Outgoing.mbufs) n mem = some mem' ∧
      ∀ (i : Nat) (x : Outgoing), xs[i]? = some x →
        (CksumRight x.coverage x.ck ⟨x.mbufs, mem'⟩ ↔
          TimestampsKept x.coverage x.mbufs (burstStamps clock xs n)
            (x.stamps clock (n + readsBefore xs i))) := by
  obtain ⟨mem', hrun, hmem, hall⟩ := @burst_spec _ xs hraw clock n mem hok.marked
    (hok.headers.imp_of_mem fun {x y} hx _ h j q hfield =>
      h.1 (j, q) (Outgoing.field_mem (hok.marked x hx).field hfield))
    hok.beside fun x hx => (hok.right x hx).pos
  refine ⟨mem', hrun, fun i x hi => ?_⟩
  obtain ⟨hpos, hcast⟩ := hall i x hi
  have hx := List.mem_of_getElem? hi
  have heven := (hok.marked x hx).evenPsdHdr
  have hright := hok.right x hx
  have hbefore := (cksumRight_cast_iff heven hright.pos).1 hright
  have hregion := wordSum_region_stamped hok hx
    (fun p hp hfield => hok.field_elsewhere hx hp hfield) hmem
  rw [cksumRight_cast_iff heven hpos]
  dsimp only at hbefore ⊢
  rw [hcast, hbefore, hregion, TimestampsKept, ← ZMod.natCast_eq_natCast_iff]
  push_cast
  constructor
  · intro heq
    linear_combination heq
  · intro heq
    linear_combination heq

end Spec

section Odd

/-- The timestamp at `ptr` is sent as it was written, at offset `i` of the checksummed data. -/
def SentAt (c : Coverage) (mbufs : List TxMbuf) (ptr : Nat × Nat) (i : Nat) : Prop :=
  ∀ k < 8, (c.positions mbufs)[i + k]? = some (ptr.1, ptr.2 + k)

/-- The timestamps are sent whole, at these offsets, and do not overlap, among bytes of which none
is at two places. -/
structure SentApart (c : Coverage) (mbufs : List TxMbuf) (l : List Stamp) (offsets : List Nat) :
    Prop where
  once : (c.positions mbufs).Nodup
  sent : List.Forall₂ (fun s i => SentAt c mbufs s.1 i) l offsets
  apart : offsets.Pairwise fun i i' => i + 8 ≤ i' ∨ i' + 8 ≤ i

/-- The sum of the timestamps at an odd offset. -/
def oddSum : List Stamp → List Nat → Nat
  | s :: l, i :: offsets => (if i % 2 = 1 then wordSum s.2 else 0) + oddSum l offsets
  | _, _ => 0

variable {c : Coverage} {mbufs : List TxMbuf}

/-- Exactly the eight bytes from its offset on are covered by a timestamp that is sent whole. -/
theorem SentAt.covers_iff
    {s : Stamp} {i p : Nat} {x : Nat × Nat}
    (hnodup : (c.positions mbufs).Nodup)
    (h : SentAt c mbufs s.1 i)
    (hlen : s.2.length = 8)
    (hx : (c.positions mbufs)[p]? = some x) :
    s.Covers x.1 x.2 ↔ i ≤ p ∧ p < i + 8 := by
  constructor
  · rintro ⟨hj, hlow, hhigh⟩
    have hk := h (x.2 - s.1.2) (by omega)
    have hsame : (s.1.1, s.1.2 + (x.2 - s.1.2)) = x :=
      Prod.ext hj.symm (Nat.add_sub_cancel' hlow)
    rw [hsame, ← hx] at hk
    have hp : i + (x.2 - s.1.2) < (c.positions mbufs).length := by
      rw [hx] at hk
      exact (List.getElem?_eq_some_iff.1 hk).1
    have hindex := (List.getElem?_inj hp hnodup).1 hk
    omega
  · rintro ⟨hlow, hhigh⟩
    have hk := h (p - i) (by omega)
    rw [Nat.add_sub_cancel' hlow, hx] at hk
    rw [Option.some.inj hk]
    exact ⟨rfl, by simp, by simp only; omega⟩

/-- One timestamp among zeros. -/
theorem wordSum_one_stamp
    {s : Stamp} {i : Nat}
    (hnodup : (c.positions mbufs).Nodup)
    (h : SentAt c mbufs s.1 i)
    (hlen : s.2.length = 8) :
    ((wordSum ((c.positions mbufs).map fun x => stampByte [s] x.1 x.2 0) : Nat) : Ones) =
      atOffset (decide (i % 2 = 1)) (wordSum s.2 : Ones) := by
  have hlast := h 7 (by omega)
  have hfits : i + 7 < (c.positions mbufs).length := (List.getElem?_eq_some_iff.1 hlast).1
  have hbytes : ((c.positions mbufs).map fun x => stampByte [s] x.1 x.2 0) =
      List.replicate i 0 ++ s.2 ++ List.replicate ((c.positions mbufs).length - (i + 8)) 0 := by
    apply List.ext_getElem
    · simp only [List.length_map, List.length_append, List.length_replicate, hlen]
      omega
    · intro p hp hp'
      rw [List.length_map] at hp
      rw [List.getElem_map]
      have hcovers := h.covers_iff hnodup hlen (List.getElem?_eq_getElem hp)
      simp only [stampByte, hcovers]
      split_ifs with hin
      · have hx := h (p - i) (by omega)
        rw [Nat.add_sub_cancel' hin.1, List.getElem?_eq_getElem hp] at hx
        rw [Option.some.inj hx, List.getElem_append_left (by simp; omega),
          List.getElem_append_right (by simp; omega)]
        simp only [List.length_replicate, Nat.add_sub_cancel_left]
        exact List.getD_eq_getElem _ _ (by omega)
      · rcases Nat.lt_or_ge p i with hlow | hhigh
        · rw [List.getElem_append_left (by simp; omega), List.getElem_append_left (by simpa)]
          simp
        · rw [List.getElem_append_right (by simp; omega)]
          simp
  rw [hbytes, wordSum_among_zeros]

/-- Timestamps that do not overlap add up, each with the weight of its offset. -/
theorem wordSum_apart
    {l : List Stamp} {offsets : List Nat}
    (h : SentApart c mbufs l offsets)
    (hlen : ∀ s ∈ l, s.2.length = 8) :
    ((wordSum ((c.positions mbufs).map fun x => stampByte l x.1 x.2 0) : Nat) : Ones) =
      (stampSum l : Ones) + 255 * (oddSum l offsets : Ones) := by
  obtain ⟨hnodup, hsent, hapart⟩ := h
  induction hsent with
  | nil =>
      have hzeros : ((c.positions mbufs).map fun x => stampByte [] x.1 x.2 0) =
          List.replicate (c.positions mbufs).length 0 := by
        simp only [stampByte, List.map_const']
      rw [hzeros, wordSum_replicate_zero]
      simp [stampSum, oddSum]
  | @cons s i l offsets hfirst hrest ih =>
      rw [List.pairwise_cons] at hapart
      have hsplit : ∀ x ∈ c.positions mbufs, (stampByte (s :: l) x.1 x.2 0).toNat =
          (stampByte [s] x.1 x.2 0).toNat + (stampByte l x.1 x.2 0).toNat := by
        intro x hx
        obtain ⟨p, hp⟩ := List.mem_iff_getElem?.1 hx
        have hone : stampByte [s] x.1 x.2 0 =
            if s.Covers x.1 x.2 then s.2.getD (x.2 - s.1.2) 0 else 0 := rfl
        rw [hone, stampByte]
        refine stampByte_toNat ?_
        rintro ⟨t, ht, hcovers⟩
        obtain ⟨i', hi', hsentAt⟩ : ∃ i' ∈ offsets, SentAt c mbufs t.1 i' := by
          obtain ⟨k, hk⟩ := List.mem_iff_getElem?.1 ht
          have hk' : k < offsets.length := by
            rw [← hrest.length_eq]
            exact (List.getElem?_eq_some_iff.1 hk).1
          refine ⟨offsets[k], List.getElem_mem hk', ?_⟩
          have hkl := (List.getElem?_eq_some_iff.1 hk).1
          have hat := hrest.get hkl hk'
          rwa [List.get_eq_getElem, (List.getElem?_eq_some_iff.1 hk).2] at hat
        have hin := (hsentAt.covers_iff hnodup (hlen t (by simp [ht])) hp).1 hcovers
        have hout : ¬ s.Covers x.1 x.2 := by
          rw [hfirst.covers_iff hnodup (hlen s (by simp)) hp]
          have hside := hapart.1 i' hi'
          omega
        rw [if_neg hout]
      rw [wordSum_map_add hsplit]
      push_cast
      rw [wordSum_one_stamp hnodup hfirst (hlen s (by simp)),
        ih (fun t ht => hlen t (by simp [ht])) hapart.2]
      simp only [stampSum, List.map_cons, List.sum_cons, oddSum]
      by_cases hodd : i % 2 = 1
      · simp only [hodd, decide_true, atOffset, if_true]
        push_cast
        ring
      · simp only [hodd, decide_false, atOffset, if_false, Bool.false_eq_true]
        push_cast
        ring

/-- No other packet of the burst writes to the checksummed data of the packet at `i`. -/
def Unshared (xs : List Outgoing) (i : Nat) (x : Outgoing) : Prop :=
  ∀ k y, k ≠ i → xs[k]? = some y → ∀ p ∈ x.coverage.positions x.mbufs, ¬ y.Writes p.1 p.2

theorem burstStamps_split
    {clock : Nat → U64} {n i : Nat} {xs : List Outgoing} {x : Outgoing}
    (hx : xs[i]? = some x) :
    ∃ n', burstStamps clock xs n = burstStamps clock (xs.take i) n ++
      (x.stamps clock (n + readsBefore xs i) ++ burstStamps clock (xs.drop (i + 1)) n') := by
  induction xs generalizing n i with
  | nil =>
      simp at hx
  | cons y xs ih =>
      cases i with
      | zero =>
          cases hx
          exact ⟨_, rfl⟩
      | succ i =>
          obtain ⟨n', hsplit⟩ := @ih (n + (stampedSegs y.mbufs).length) i (by simpa using hx)
          have hreads : n + readsBefore (y :: xs) (i + 1) =
              n + (stampedSegs y.mbufs).length + readsBefore xs i := by
            simp [readsBefore, Nat.add_assoc]
          refine ⟨n', ?_⟩
          rw [burstStamps, hsplit, hreads, List.take_succ_cons, List.drop_succ_cons, burstStamps,
            List.append_assoc]

/-- Of such a packet the data has its own timestamps. -/
theorem stampByte_unshared
    {clock : Nat → U64} {n i : Nat} {xs : List Outgoing} {x : Outgoing} {p : Nat × Nat}
    (hx : xs[i]? = some x)
    (hunshared : Unshared xs i x)
    (hp : p ∈ x.coverage.positions x.mbufs) :
    stampByte (burstStamps clock xs n) p.1 p.2 0 =
      stampByte (x.stamps clock (n + readsBefore xs i)) p.1 p.2 0 := by
  obtain ⟨n', hsplit⟩ := @burstStamps_split clock n i xs x hx
  have hbefore : ∀ y ∈ xs.take i, ¬ y.Writes p.1 p.2 := by
    intro y hy
    obtain ⟨k, hk⟩ := List.mem_iff_getElem?.1 hy
    have hki : k < i := by
      have hlt := (List.getElem?_eq_some_iff.1 hk).1
      rw [List.length_take] at hlt
      omega
    rw [List.getElem?_take_of_lt hki] at hk
    exact hunshared k y hki.ne hk p hp
  have hafter : ∀ y ∈ xs.drop (i + 1), ¬ y.Writes p.1 p.2 := by
    intro y hy
    obtain ⟨k, hk⟩ := List.mem_iff_getElem?.1 hy
    rw [List.getElem?_drop] at hk
    exact hunshared (i + 1 + k) y (by omega) hk p hp
  rw [hsplit, stampByte_append, stampByte_append, stampByte_burst hbefore,
    stampByte_burst hafter]

/-- For timestamps that are sent whole only those at an odd offset matter. -/
theorem timestampsKept_iff_odd
    {clock : Nat → U64} {n i : Nat} {xs : List Outgoing} {x : Outgoing} {offsets : List Nat}
    (hx : xs[i]? = some x)
    (hunshared : Unshared xs i x)
    (h : SentApart x.coverage x.mbufs (x.stamps clock (n + readsBefore xs i)) offsets) :
    TimestampsKept x.coverage x.mbufs (burstStamps clock xs n)
        (x.stamps clock (n + readsBefore xs i)) ↔
      257 ∣ oddSum (x.stamps clock (n + readsBefore xs i)) offsets := by
  have hlen : ∀ s ∈ x.stamps clock (n + readsBefore xs i), s.2.length = 8 := by
    intro s hs
    obtain ⟨_, _, _, hlen⟩ := mem_stamps hs
    exact hlen
  have hsum := wordSum_apart h hlen
  have hown : ((x.coverage.positions x.mbufs).map fun p =>
        stampByte (burstStamps clock xs n) p.1 p.2 0) =
      (x.coverage.positions x.mbufs).map fun p =>
        stampByte (x.stamps clock (n + readsBefore xs i)) p.1 p.2 0 :=
    List.map_congr_left fun p hp => stampByte_unshared hx hunshared hp
  rw [TimestampsKept, ← ZMod.natCast_eq_natCast_iff, ← mul_255_eq_zero, hown, hsum,
    add_eq_left]

end Odd

section Sending

variable {rteRawCksum : RawCksumReduced}

/--
After a burst the checksum of each packet is right exactly if its timestamps are counted right;
when they are sent whole and apart, and no other packet of the burst writes to the data, that is if
those at an odd offset of the checksummed data add up to a multiple of 257.
-/
theorem txBurst_cksum_iff
    (hraw : RawCksumOk rteRawCksum)
    (clock : Nat → U64) (n : Nat) (mem : Memory) (xs : List Outgoing)
    (hok : BurstOk mem xs) :
    ∃ mem',
      tstampPktloopTxPktBurst (some (testUpdateCksumTstamp rteRawCksum)) clock
          (xs.map Outgoing.mbufs) n mem = some mem' ∧
      ∀ (i : Nat) (x : Outgoing), xs[i]? = some x →
        (CksumRight x.coverage x.ck ⟨x.mbufs, mem'⟩ ↔
          TimestampsKept x.coverage x.mbufs (burstStamps clock xs n)
            (x.stamps clock (n + readsBefore xs i))) ∧
        (Unshared xs i x → ∀ offsets,
          SentApart x.coverage x.mbufs (x.stamps clock (n + readsBefore xs i)) offsets →
          (CksumRight x.coverage x.ck ⟨x.mbufs, mem'⟩ ↔
            257 ∣ oddSum (x.stamps clock (n + readsBefore xs i)) offsets)) := by
  obtain ⟨mem', hrun, hall⟩ := cksumRight_iff hraw clock n hok
  refine ⟨mem', hrun, fun i x hx => ⟨hall i x hx, fun hunshared offsets hapart => ?_⟩⟩
  exact (hall i x hx).trans (timestampsKept_iff_odd hx hunshared hapart)

/-- A function that behaves as `__rte_raw_cksum()` and its reduction do. -/
def rawCksumReduced : RawCksumReduced := fun buf init =>
  BitVec.ofNat 16 (folded (init.toNat + wordSum buf))

theorem rawCksumReduced_ok :
    RawCksumOk rawCksumReduced := by
  intro buf init
  have hle := folded_le (init.toNat + wordSum buf)
  rw [rawCksumReduced, BitVec.toNat_ofNat]
  exact Nat.mod_eq_of_lt (by omega)

/-- A UDP packet with its header in the allocation `buf`, and with a timestamp at byte `off` of its
payload, which is in the allocation 1. -/
def sampleOutgoing (buf off : Nat) : Outgoing :=
  let hdr := tstampWriteCksumOffset 0 6
  { mbufs := [⟨buf, 0, 8, tstampTxPkt hdr (BitVec.ofNat 32 (8 + off)) 8⟩, ⟨1, 0, 8 + off, 0⟩]
    coverage :=
      { psdHdr := psdHeader { sampleHdr with nextProtoId := 17 } (BitVec.ofNat 16 (16 + off))
        start := 0
        len := 16 + off }
    ck := 6 }

/-- The same header in all allocations but the one of the payload. -/
def sampleMemory (off : Nat) (cksum : List UInt8) : Memory := fun j q =>
  if j = 1 then 0 else ([0, 7, 0, 8, 0, UInt8.ofNat (16 + off)] ++ cksum).getD q 0

theorem sample_mark
    {buf off : Nat}
    (hbuf : buf = 0 ∨ buf = 2)
    (hoff : off = 2 ∨ off = 1) :
    stampedSegs (sampleOutgoing buf off).mbufs = [0] ∧
      stampPointer (sampleOutgoing buf off).mbufs 0 = some (1, off) := by
  rcases hbuf with rfl | rfl <;> rcases hoff with rfl | rfl <;> decide +kernel

theorem sample_writes
    {buf off j q : Nat}
    (hbuf : buf = 0 ∨ buf = 2)
    (hoff : off = 2 ∨ off = 1)
    (h : (sampleOutgoing buf off).Writes j q) :
    j = 1 := by
  obtain ⟨hsegs, hptr⟩ := sample_mark hbuf hoff
  obtain ⟨seg, hseg, ptr, hat, hj, -⟩ := h
  rw [hsegs, List.mem_singleton] at hseg
  rw [hseg, hptr] at hat
  rw [hj, ← Option.some.inj hat]

theorem sample_marked
    {buf off : Nat}
    (hbuf : buf = 0 ∨ buf = 2)
    (hoff : off = 2 ∨ off = 1) :
    (sampleOutgoing buf off).Marked := by
  obtain ⟨hsegs, hptr⟩ := sample_mark hbuf hoff
  refine ⟨⟨?_, ?_, ?_, List.cons_ne_nil _ _⟩, ?_, fun seg hseg => ?_⟩
  · rcases hbuf with rfl | rfl <;> rcases hoff with rfl | rfl <;> decide +kernel
  · rintro m ⟨⟩
    exact le_rfl
  · exact Nat.succ_pos 5
  · rcases hbuf with rfl | rfl <;> rcases hoff with rfl | rfl <;> decide +kernel
  · rw [hsegs, List.mem_singleton] at hseg
    subst hseg
    refine ⟨(1, off), hptr, ?_⟩
    rcases hbuf with rfl | rfl <;> rcases hoff with rfl | rfl <;> decide +kernel

/-- Two such packets, with their payload in the same memory. -/
theorem sampleBurst_ok
    {off : Nat} {cksum : List UInt8}
    (h : off = 2 ∧ cksum = [0xEB, 0xB8] ∨ off = 1 ∧ cksum = [0xEB, 0xBA]) :
    BurstOk (sampleMemory off cksum) [sampleOutgoing 0 off, sampleOutgoing 2 off] := by
  have hoff : off = 2 ∨ off = 1 := h.imp And.left And.left
  refine ⟨fun x hx => ?_, fun x hx => ?_, ?_, fun x hx y hy j q hfield hwrites => ?_,
    fun x hx y hy p hp hwrites => ?_⟩
  · rcases List.mem_pair.1 hx with rfl | rfl
    · exact sample_marked (Or.inl rfl) hoff
    · exact sample_marked (Or.inr rfl) hoff
  · unfold CksumRight
    rcases List.mem_pair.1 hx with rfl | rfl
    · rcases h with ⟨rfl, rfl⟩ | ⟨rfl, rfl⟩ <;> decide +kernel
    · rcases h with ⟨rfl, rfl⟩ | ⟨rfl, rfl⟩ <;> decide +kernel
  · rw [List.pairwise_pair]
    unfold Outgoing.InField
    rcases hoff with rfl | rfl <;> decide +kernel
  · have hj : j = 1 := by
      rcases List.mem_pair.1 hy with rfl | rfl
      · exact sample_writes (Or.inl rfl) hoff hwrites
      · exact sample_writes (Or.inr rfl) hoff hwrites
    have hbuf := hfield.1
    rcases List.mem_pair.1 hx with rfl | rfl
    · cases hj.symm.trans hbuf
    · cases hj.symm.trans hbuf
  · have hj : p.1 = 1 := by
      rcases List.mem_pair.1 hy with rfl | rfl
      · exact sample_writes (Or.inl rfl) hoff hwrites
      · exact sample_writes (Or.inr rfl) hoff hwrites
    rw [sampleMemory, if_pos hj]

/-- One packet with a timestamp at an even offset. -/
theorem txBurst_cksum_iff_even :
    ∃ mem',
      tstampPktloopTxPktBurst (some (testUpdateCksumTstamp rawCksumReduced)) (fun _ => 1)
          [(sampleOutgoing 0 2).mbufs] 0 (sampleMemory 2 [0xEB, 0xB8]) = some mem' ∧
        CksumRight (sampleOutgoing 0 2).coverage 6 ⟨(sampleOutgoing 0 2).mbufs, mem'⟩ := by
  have hok := (sampleBurst_ok (Or.inl ⟨rfl, rfl⟩)).sublist
    (List.sublist_cons_iff.2 (Or.inr ⟨[], rfl, List.nil_sublist _⟩))
  obtain ⟨mem', hrun, hall⟩ :=
    txBurst_cksum_iff rawCksumReduced_ok (fun _ => 1) 0 _ [sampleOutgoing 0 2] hok
  have hstamps : (sampleOutgoing 0 2).stamps (fun _ => 1) 0 = [((1, 2), tstampBytes 1)] := by
    decide +kernel
  have hapart : SentApart (sampleOutgoing 0 2).coverage (sampleOutgoing 0 2).mbufs
      [((1, 2), tstampBytes 1)] [10] := by
    refine ⟨by decide +kernel, .cons ?_ .nil, List.pairwise_singleton _ _⟩
    unfold SentAt
    decide +kernel
  have halone : Unshared [sampleOutgoing 0 2] 0 (sampleOutgoing 0 2) := by
    intro k y hk hy
    cases k with
    | zero => exact absurd rfl hk
    | succ k => simp at hy
  rw [← hstamps] at hapart
  refine ⟨mem', hrun, ((hall 0 _ rfl).2 halone [10] hapart).2 ?_⟩
  decide +kernel

/-- A timestamp at the second byte of the payload makes the checksum wrong; and so does, at an even
offset, the later timestamp of another packet in the same memory. -/
theorem oddTimestamp_corrupts :
    (BurstOk (sampleMemory 1 [0xEB, 0xBA]) [sampleOutgoing 0 1] ∧
      ∃ mem',
        tstampPktloopTxPktBurst (some (testUpdateCksumTstamp rawCksumReduced)) (fun _ => 1)
            [(sampleOutgoing 0 1).mbufs] 0 (sampleMemory 1 [0xEB, 0xBA]) = some mem' ∧
          ¬ CksumRight (sampleOutgoing 0 1).coverage 6 ⟨(sampleOutgoing 0 1).mbufs, mem'⟩) ∧
    BurstOk (sampleMemory 2 [0xEB, 0xB8]) [sampleOutgoing 0 2, sampleOutgoing 2 2] ∧
      ∃ mem',
        tstampPktloopTxPktBurst (some (testUpdateCksumTstamp rawCksumReduced))
            (fun n => BitVec.ofNat 64 (n + 1))
            [(sampleOutgoing 0 2).mbufs, (sampleOutgoing 2 2).mbufs] 0
            (sampleMemory 2 [0xEB, 0xB8]) = some mem' ∧
          ¬ CksumRight (sampleOutgoing 0 2).coverage 6 ⟨(sampleOutgoing 0 2).mbufs, mem'⟩ := by
  constructor
  · have hok := (sampleBurst_ok (Or.inr ⟨rfl, rfl⟩)).sublist
      (List.sublist_cons_iff.2 (Or.inr ⟨[], rfl, List.nil_sublist _⟩))
    obtain ⟨mem', hrun, hall⟩ := cksumRight_iff rawCksumReduced_ok (fun _ => 1) 0 hok
    refine ⟨hok, mem', hrun, fun hright => ?_⟩
    have hkept := (hall 0 _ rfl).1 hright
    unfold TimestampsKept at hkept
    revert hkept
    decide +kernel
  · have hok := sampleBurst_ok (Or.inl ⟨rfl, rfl⟩)
    obtain ⟨mem', hrun, hall⟩ :=
      cksumRight_iff rawCksumReduced_ok (fun n => BitVec.ofNat 64 (n + 1)) 0 hok
    refine ⟨hok, mem', hrun, fun hright => ?_⟩
    have hkept := (hall 0 _ rfl).1 hright
    unfold TimestampsKept at hkept
    revert hkept
    decide +kernel

end Sending

end TimestampCksum
end Warp17
