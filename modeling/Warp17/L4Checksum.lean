import Warp17.MbufChains
import Warp17.OnesComplement

/-!
# The software checksum of TCP and UDP

`ipv4_general_l4_cksum()` and `ipv4_update_general_l4_cksum()` add the 16-bit sums that
`rte_raw_cksum()` returns for the pseudo-header and for each mbuf, add the carry back once,
and complement.  The offset of an mbuf in the packet is not looked at, and zero is sent as all
ones.  The numbers are native 16-bit values of a little-endian machine.

`rte_raw_cksum()` is a parameter: the folded one's-complement sum of its buffer (`RawCksum`).

**Results**
- `l4Cksum_ok`: both functions compute the RFC 1071 checksum exactly when the mbufs that begin
  at an odd offset add up to a multiple of 257 and adding the carry back does not carry again;
  then the receive check is exact, and what the sender emits passes it.
- `oddMbuf_corrupts`, in its proof a packet for each of the two conditions.
-/

namespace Warp17
namespace L4Checksum

open SequenceComparison MbufChains OnesComplement

abbrev U16 := BitVec 16

section Source

/-- What the checksum reads of `struct rte_ipv4_hdr`; the addresses are in network order. -/
structure Ipv4Hdr where
  srcAddr : U32
  dstAddr : U32
  nextProtoId : UInt8
deriving DecidableEq, Repr

/-- `rte_cpu_to_be_16()`. -/
def rteCpuToBe16 (x : U16) : U16 :=
  (x <<< 8) ||| (x >>> 8)

/-- A 16-bit value in memory. -/
def bytes16 (x : U16) : List UInt8 :=
  [UInt8.ofNat (x.toNat % 256), UInt8.ofNat (x.toNat / 256)]

/-- A 32-bit value in memory. -/
def bytes32 (x : U32) : List UInt8 :=
  bytes16 (x.truncate 16) ++ bytes16 ((x >>> 16).truncate 16)

/-- `struct ipv4_psd_header` in memory. -/
def psdHeader (hdr : Ipv4Hdr) (l4Len : U16) : List UInt8 :=
  bytes32 hdr.srcAddr ++ bytes32 hdr.dstAddr ++ [0, hdr.nextProtoId] ++
    bytes16 (rteCpuToBe16 l4Len)

variable (rteRawCksum : List UInt8 → U16)

/-- `ipv4_udptcp_phdr_cksum()`. -/
def ipv4UdptcpPhdrCksum (hdr : Ipv4Hdr) (l4Len : U16) : U16 :=
  rteRawCksum (psdHeader hdr l4Len)

/-- The loop over the mbufs of a chain. -/
def cksumMbufs : Chain → Nat → U32 → U32
  | [], _, cksum => cksum
  | m :: rest, bytesLeft, cksum =>
      if bytesLeft = 0 then
        cksum
      else
        let mbufDataLen := if bytesLeft < m.data.length then bytesLeft else m.data.length
        cksumMbufs rest (bytesLeft - mbufDataLen)
          (cksum + (rteRawCksum (m.data.take mbufDataLen)).zeroExtend 32)

/-- The end of both functions: wrap back to 16 bits, complement, and avoid zero. -/
def wrapCksum (cksum : U32) : U16 :=
  let cksum := ((cksum >>> 16) &&& 0xffff) + (cksum &&& 0xffff)
  let cksum := ~~~cksum &&& 0xffff
  if cksum = 0 then 0xffff else cksum.truncate 16

/-- `ipv4_general_l4_cksum()`; the chain is its first mbuf and the others. -/
def ipv4GeneralL4Cksum (mbuf : Mbuf) (next : Chain) (hdr : Ipv4Hdr) (l4Offset l4Length : U16) :
    U16 :=
  let cksum := (ipv4UdptcpPhdrCksum rteRawCksum hdr l4Length).zeroExtend 32
  let dataLen := mbuf.data.length - l4Offset.toNat
  let mbufDataLen := if l4Length.toNat < dataLen then l4Length.toNat else dataLen
  let cksum := cksum +
    (rteRawCksum ((mbuf.data.drop l4Offset.toNat).take mbufDataLen)).zeroExtend 32
  wrapCksum (cksumMbufs rteRawCksum next (l4Length.toNat - mbufDataLen) cksum)

/-- `ipv4_update_general_l4_cksum()`. -/
def ipv4UpdateGeneralL4Cksum (cksumIn : U16) (mbuf : Chain) : U16 :=
  let bytesLeft := chainPktLen mbuf
  let cksum := (~~~cksumIn).zeroExtend 32
  -- add missing length for data segment in pseudo header
  let cksum := cksum + (rteCpuToBe16 (bytesLeft.truncate 16)).zeroExtend 32
  wrapCksum (cksumMbufs rteRawCksum mbuf bytesLeft.toNat cksum)

/-- The check in `tcp_receive_pkt()`, without a checksum in hardware. -/
def receiveCheck (mbuf : Mbuf) (next : Chain) (hdr : Ipv4Hdr) (l4Len : U16) : Bool :=
  decide (ipv4GeneralL4Cksum rteRawCksum mbuf next hdr 0 l4Len = 0xffff)

/--
The checksum that `tcp_build_hdr()` computes over a header whose checksum is zero, and
`tcp_send_pkt()` updates if there is data.
-/
def sentCksum (mbuf : Mbuf) (hdr : Ipv4Hdr) (hdrOffset hdrLen : U16) (data : Chain) : U16 :=
  let cksum := ipv4GeneralL4Cksum rteRawCksum mbuf [] hdr hdrOffset hdrLen
  if data = [] then cksum else ipv4UpdateGeneralL4Cksum rteRawCksum cksum data

end Source

section Specification

/-- What the code relies on: the folded one's-complement sum of the buffer. -/
def RawCksum (rteRawCksum : List UInt8 → U16) : Prop :=
  ∀ buf, (rteRawCksum buf).toNat = folded (wordSum buf)

/-- A 16-bit value as it is read in network order. -/
def networkOrder (x : U16) : Nat :=
  wordSumBe (bytes16 x)

/-- The RFC 1071 checksum of a byte string, in network order. -/
def rfc1071 (bs : List UInt8) : Nat :=
  65535 - folded (wordSumBe bs)

/-- In one's complement, zero is also all ones. -/
def transmitted (cksum : Nat) : Nat :=
  if cksum = 0 then 65535 else cksum

/-- The checksum in a packet is valid: its words add up to all ones. -/
def CksumValid (bs : List UInt8) : Prop :=
  folded (wordSumBe bs) = 65535

/-- The bytes of the packet from the L4 header on. -/
def l4Bytes (mbuf : Mbuf) (next : Chain) (l4Offset l4Length : U16) : List UInt8 :=
  (mbuf.data.drop l4Offset.toNat ++ chainBytes next).take l4Length.toNat

/-- The parts that the first `n` bytes of a chain are split into. -/
def chainParts : Chain → Nat → List (List UInt8)
  | [], _ => []
  | m :: rest, n => m.data.take n :: chainParts rest (n - m.data.length)

/-- The parts that the packet from the L4 header on is split into. -/
def l4Parts (mbuf : Mbuf) (next : Chain) (l4Offset l4Length : U16) : List (List UInt8) :=
  (mbuf.data.drop l4Offset.toNat).take l4Length.toNat ::
    chainParts next (l4Length.toNat - (mbuf.data.length - l4Offset.toNat))

/--
A sum of 16-bit sums of parts that comes out right: adding the carry back does not carry, and
the parts at odd offsets add up to a multiple of 257, as they do when there are none.
-/
def SumsRight (start : Nat) (odd : Bool) (parts : List (List UInt8)) : Prop :=
  (start + partSum parts) / 65536 + (start + partSum parts) % 65536 < 65536 ∧
    257 ∣ oddPartSum odd parts

instance (start : Nat) (odd : Bool) (parts : List (List UInt8)) :
    Decidable (SumsRight start odd parts) :=
  inferInstanceAs (Decidable (_ ∧ _))

end Specification

section Values

variable {rteRawCksum : List UInt8 → U16}

theorem partSum_chainParts_zero
    (c : Chain) :
    partSum (chainParts c 0) = 0 := by
  induction c with
  | nil =>
      rfl
  | cons m rest ih =>
      simp only [chainParts, List.take_zero, partSum, Nat.zero_sub, ih]
      rfl

theorem chainParts_flatten
    (c : Chain) (n : Nat) :
    (chainParts c n).flatten = (chainBytes c).take n := by
  induction c generalizing n with
  | nil =>
      simp [chainParts, chainBytes]
  | cons m rest ih =>
      rw [chainParts, List.flatten_cons, ih, chainBytes_cons, List.take_append]

theorem l4Parts_flatten
    (mbuf : Mbuf) (next : Chain) (l4Offset l4Length : U16) :
    (l4Parts mbuf next l4Offset l4Length).flatten = l4Bytes mbuf next l4Offset l4Length := by
  rw [l4Parts, List.flatten_cons, chainParts_flatten, l4Bytes, List.take_append,
    List.length_drop]

/-- Every part but the empty ones takes a byte, so the 32-bit sum is exact. -/
theorem partSum_chainParts_le
    (c : Chain) (n : Nat) :
    partSum (chainParts c n) ≤ 65535 * n := by
  have hle := partSum_le (chainParts c n)
  rw [chainParts_flatten, List.length_take] at hle
  have hmin : min n (chainBytes c).length ≤ n := Nat.min_le_left _ _
  have hmul := Nat.mul_le_mul_left 65535 hmin
  omega

theorem zeroExtend_toNat
    (x : U16) :
    (x.zeroExtend 32).toNat = x.toNat := by
  simp
  omega

theorem add_zeroExtend
    {c : U32} {x : U16}
    (h : c.toNat + x.toNat < 2 ^ 32) :
    (c + x.zeroExtend 32).toNat = c.toNat + x.toNat := by
  rw [BitVec.toNat_add, zeroExtend_toNat, Nat.mod_eq_of_lt h]

/-- The loop adds the sums of the parts. -/
theorem cksumMbufs_toNat
    (hraw : RawCksum rteRawCksum)
    {c : Chain} {n : Nat} {cksum : U32}
    (h : cksum.toNat + partSum (chainParts c n) < 2 ^ 32) :
    (cksumMbufs rteRawCksum c n cksum).toNat = cksum.toNat + partSum (chainParts c n) := by
  induction c generalizing n cksum with
  | nil =>
      rfl
  | cons m rest ih =>
      rw [cksumMbufs]
      split
      · rename_i hzero
        rw [hzero, partSum_chainParts_zero, Nat.add_zero]
      · have htake : m.data.take (if n < m.data.length then n else m.data.length) =
            m.data.take n := by
          split
          · rfl
          · rename_i hge
            rw [List.take_length, List.take_of_length_le (by omega)]
        have hleft : n - (if n < m.data.length then n else m.data.length) =
            n - m.data.length := by
          split <;> omega
        simp only [htake, hleft]
        simp only [chainParts, partSum] at h ⊢
        have hsum := add_zeroExtend (c := cksum) (x := rteRawCksum (m.data.take n))
          (by rw [hraw]; omega)
        rw [ih (by rw [hsum, hraw]; omega), hsum, hraw]
        omega

/-- Wrapping adds the carry back once and complements. -/
theorem wrapCksum_toNat
    (c : U32) :
    (wrapCksum c).toNat = transmitted (65535 - foldOnce c.toNat) := by
  have hlt := c.isLt
  have hwrap : (~~~(((c >>> 16) &&& 0xffff) + (c &&& 0xffff)) &&& (0xffff : U32)).toNat =
      65535 - foldOnce c.toNat := by
    have hmask : ∀ x : U32, (x &&& 0xffff).toNat = x.toNat % 65536 := by
      intro x
      rw [BitVec.toNat_and]
      exact Nat.and_two_pow_sub_one_eq_mod x.toNat 16
    rw [hmask, BitVec.toNat_not, BitVec.toNat_add, hmask, hmask, BitVec.toNat_ushiftRight,
      Nat.shiftRight_eq_div_pow, foldOnce]
    omega
  unfold wrapCksum transmitted
  simp only
  split
  · rename_i hzero
    rw [hzero] at hwrap
    rw [← hwrap]
    rfl
  · rename_i hne
    have hnat : (~~~(((c >>> 16) &&& 0xffff) + (c &&& 0xffff)) &&& (0xffff : U32)).toNat ≠ 0 := by
      intro h0
      exact hne (BitVec.eq_of_toNat_eq (by simpa using h0))
    rw [BitVec.truncate_eq_setWidth, BitVec.toNat_setWidth, hwrap]
    rw [hwrap] at hnat
    rw [if_neg hnat]
    omega

end Values

section Agreement

theorem transmitted_pos
    {n : Nat} :
    0 < transmitted n := by
  unfold transmitted
  split <;> omega

theorem transmitted_le
    {n : Nat}
    (h : n ≤ 65535) :
    transmitted n ≤ 65535 := by
  unfold transmitted
  split <;> omega

theorem transmitted_cast
    (n : Nat) :
    ((transmitted n : Nat) : Ones) = (n : Ones) := by
  unfold transmitted
  split
  · rename_i hzero
    rw [hzero]
    decide
  · rfl

theorem complement_cast
    {n : Nat}
    (h : n ≤ 65535) :
    ((65535 - n : Nat) : Ones) = -(n : Ones) := by
  rw [Nat.cast_sub h]
  push_cast
  rw [ones_zero, zero_sub]

theorem bytes16_toNat
    (x : U16) :
    (UInt8.ofNat (x.toNat % 256)).toNat = x.toNat % 256 ∧
      (UInt8.ofNat (x.toNat / 256)).toNat = x.toNat / 256 := by
  have hx := x.isLt
  constructor
  · rw [UInt8.toNat_ofNat']
    omega
  · rw [UInt8.toNat_ofNat']
    omega

theorem wordSum_bytes16
    (x : U16) :
    wordSum (bytes16 x) = x.toNat := by
  obtain ⟨hlow, hhigh⟩ := bytes16_toNat x
  rw [bytes16, wordSum_cons_cons, hlow, hhigh, wordSum]
  omega

theorem networkOrder_eq
    (x : U16) :
    networkOrder x = 256 * (x.toNat % 256) + x.toNat / 256 := by
  obtain ⟨hlow, hhigh⟩ := bytes16_toNat x
  rw [networkOrder, bytes16, wordSumBe, hlow, hhigh, wordSumBe, Nat.add_zero]

theorem networkOrder_cast
    (x : U16) :
    ((networkOrder x : Nat) : Ones) = 256 * (x.toNat : Ones) := by
  rw [networkOrder, wordSumBe_eq, wordSum_bytes16]

/-- Two 16-bit checksums without zero are the same when they are congruent. -/
theorem networkOrder_eq_iff
    {r : U16} {bs : List UInt8}
    (hpos : 0 < r.toNat) :
    networkOrder r = transmitted (rfc1071 bs) ↔ (r.toNat : Ones) = -(wordSum bs : Ones) := by
  have hlt := r.isLt
  have hspec : ((transmitted (rfc1071 bs) : Nat) : Ones) = 256 * -(wordSum bs : Ones) := by
    rw [transmitted_cast, rfc1071, complement_cast (folded_le _), folded_cast, wordSumBe_eq,
      mul_neg]
  have hcancel : ∀ a b : Ones, 256 * a = 256 * b → a = b := by
    intro a b h
    have hmul := congrArg (fun x => 256 * x) h
    simp only [← mul_assoc, ones_sq, one_mul] at hmul
    exact hmul
  constructor
  · intro h
    have hcast := networkOrder_cast r
    rw [h, hspec] at hcast
    exact (hcancel _ _ hcast).symm
  · intro h
    refine eq_of_cast ?_ transmitted_pos ?_ (transmitted_le (Nat.sub_le _ _)) ?_
    · rw [networkOrder_eq]
      omega
    · rw [networkOrder_eq]
      omega
    · rw [networkOrder_cast, hspec, h]

/-- A complemented sum of parts is the checksum when the sum comes out right. -/
theorem cksum_agrees
    {r : U16} {bs : List UInt8} {start : Nat} {odd : Bool} {parts : List (List UInt8)}
    (hr : r.toNat = transmitted (65535 - foldOnce (start + partSum parts)))
    (hlt : start + partSum parts < 2 ^ 32)
    (hbs :
      (wordSum bs : Ones) = (start : Ones) + ((partSum parts : Ones) +
        255 * (oddPartSum odd parts : Ones))) :
    networkOrder r = transmitted (rfc1071 bs) ↔ SumsRight start odd parts := by
  have hpos : 0 < r.toNat := by
    rw [hr]
    exact transmitted_pos
  have honce : foldOnce (start + partSum parts) ≤ 65535 := by
    unfold foldOnce
    omega
  have hcast : (r.toNat : Ones) = -((start : Ones) + (partSum parts : Ones) -
      if (start + partSum parts) / 65536 + (start + partSum parts) % 65536 < 65536
      then 0 else 1) := by
    rw [hr, transmitted_cast, complement_cast honce, foldOnce_cast hlt]
    push_cast
    rfl
  rw [networkOrder_eq_iff hpos, hcast, hbs, neg_inj]
  unfold SumsRight
  split
  · rename_i hfits
    rw [sub_zero, ← add_assoc, left_eq_add, mul_255_eq_zero]
    simp [hfits]
  · rename_i hcarry
    constructor
    · intro h
      have hneg : (255 : Ones) * (oddPartSum odd parts : Ones) = -1 := by
        rw [← add_assoc, sub_eq_add_neg, add_right_inj] at h
        exact h.symm
      exact absurd hneg mul_255_ne_neg_one
    · rintro ⟨hfits, -⟩
      exact absurd hfits hcarry

end Agreement

section Headers

variable {rteRawCksum : List UInt8 → U16}

theorem rteCpuToBe16_toNat
    (x : U16) :
    (rteCpuToBe16 x).toNat = 256 * (x.toNat % 256) + x.toNat / 256 := by
  have hx := x.isLt
  have hdisjoint : (x <<< 8) &&& (x >>> 8) = 0 := by
    ext i hi
    simp only [BitVec.getElem_and, BitVec.getElem_shiftLeft, BitVec.getElem_ushiftRight]
    by_cases hlow : i < 8
    · simp [hlow]
    · rw [BitVec.getLsbD_of_ge x (8 + i) (by omega)]
      simp
  rw [rteCpuToBe16, ← BitVec.add_eq_or_of_and_eq_zero _ _ hdisjoint, BitVec.toNat_add,
    BitVec.toNat_shiftLeft, BitVec.toNat_ushiftRight, Nat.shiftLeft_eq,
    Nat.shiftRight_eq_div_pow]
  omega

theorem rteCpuToBe16_cast
    (x : U16) :
    ((rteCpuToBe16 x).toNat : Ones) = 256 * (x.toNat : Ones) := by
  have hdecomp : (x.toNat : Ones) = ((256 * (x.toNat / 256) + x.toNat % 256 : Nat) : Ones) := by
    rw [Nat.div_add_mod]
  rw [rteCpuToBe16_toNat, hdecomp]
  push_cast
  rw [mul_add, ← mul_assoc 256 256, ones_sq]
  ring

/-- The pseudo-header without the length. -/
def psdStart (hdr : Ipv4Hdr) : List UInt8 :=
  bytes32 hdr.srcAddr ++ bytes32 hdr.dstAddr ++ [0, hdr.nextProtoId]

theorem wordSum_psdHeader
    (hdr : Ipv4Hdr) (l4Len : U16) (bs : List UInt8) :
    ((wordSum (psdHeader hdr l4Len ++ bs) : Nat) : Ones) =
      (wordSum (psdHeader hdr l4Len) : Ones) + (wordSum bs : Ones) := by
  have heven : oddLength (psdHeader hdr l4Len) = false := by
    simp [oddLength, psdHeader, bytes32, bytes16]
  rw [wordSum_append, heven]
  rfl

theorem wordSum_psdHeader_cast
    (hdr : Ipv4Hdr) (l4Len : U16) :
    ((wordSum (psdHeader hdr l4Len) : Nat) : Ones) =
      (wordSum (psdStart hdr) : Ones) + 256 * (l4Len.toNat : Ones) := by
  have hsplit : psdHeader hdr l4Len = psdStart hdr ++ bytes16 (rteCpuToBe16 l4Len) := rfl
  have heven : oddLength (psdStart hdr) = false := by
    simp [oddLength, psdStart, bytes32, bytes16]
  rw [hsplit, wordSum_append, wordSum_bytes16, ← rteCpuToBe16_cast, heven]
  rfl

/-- The sum a packet begins with. -/
def psdSum (hdr : Ipv4Hdr) (l4Len : U16) : Nat :=
  folded (wordSum (psdHeader hdr l4Len))

/-- The sum that is left of a header when its checksum is updated. -/
def hdrSum (hdr : Ipv4Hdr) (hdrBytes : List UInt8) (hdrLen : U16) : Nat :=
  (psdSum hdr hdrLen + folded (wordSum hdrBytes)) % 65535

theorem ipv4GeneralL4Cksum_toNat
    (hraw : RawCksum rteRawCksum)
    (mbuf : Mbuf) (next : Chain) (hdr : Ipv4Hdr) (l4Offset l4Length : U16) :
    (ipv4GeneralL4Cksum rteRawCksum mbuf next hdr l4Offset l4Length).toNat =
        transmitted (65535 -
          foldOnce (psdSum hdr l4Length + partSum (l4Parts mbuf next l4Offset l4Length))) ∧
      psdSum hdr l4Length + partSum (l4Parts mbuf next l4Offset l4Length) < 2 ^ 32 := by
  have hbound : psdSum hdr l4Length + partSum (l4Parts mbuf next l4Offset l4Length) < 2 ^ 32 := by
    have hparts := partSum_le (l4Parts mbuf next l4Offset l4Length)
    rw [l4Parts_flatten, l4Bytes, List.length_take] at hparts
    have hlen := l4Length.isLt
    have hpsd : psdSum hdr l4Length ≤ 65535 := folded_le _
    have hmin : min l4Length.toNat
        (mbuf.data.drop l4Offset.toNat ++ chainBytes next).length ≤ l4Length.toNat :=
      Nat.min_le_left _ _
    have hmul := Nat.mul_le_mul_left 65535 hmin
    omega
  refine ⟨?_, hbound⟩
  have hclip : (mbuf.data.drop l4Offset.toNat).take
        (if l4Length.toNat < mbuf.data.length - l4Offset.toNat then l4Length.toNat
          else mbuf.data.length - l4Offset.toNat) =
      (mbuf.data.drop l4Offset.toNat).take l4Length.toNat := by
    split
    · rfl
    · rename_i hge
      rw [← List.length_drop, List.take_length,
        List.take_of_length_le (by rw [List.length_drop]; omega)]
  have hleft : l4Length.toNat -
        (if l4Length.toNat < mbuf.data.length - l4Offset.toNat then l4Length.toNat
          else mbuf.data.length - l4Offset.toNat) =
      l4Length.toNat - (mbuf.data.length - l4Offset.toNat) := by
    split <;> omega
  have hfirst : ((ipv4UdptcpPhdrCksum rteRawCksum hdr l4Length).zeroExtend 32 : U32).toNat =
      psdSum hdr l4Length := by
    rw [zeroExtend_toNat]
    exact hraw _
  have hbound' := hbound
  simp only [l4Parts, partSum] at hbound'
  have hsecond := add_zeroExtend
    (c := (ipv4UdptcpPhdrCksum rteRawCksum hdr l4Length).zeroExtend 32)
    (x := rteRawCksum ((mbuf.data.drop l4Offset.toNat).take l4Length.toNat))
    (by rw [hfirst, hraw]; omega)
  rw [hfirst, hraw] at hsecond
  simp only [ipv4GeneralL4Cksum, hclip, hleft]
  rw [wrapCksum_toNat, cksumMbufs_toNat hraw (by rw [hsecond]; omega), hsecond]
  simp only [l4Parts, partSum, Nat.add_assoc]

/-- Two 16-bit sums cannot carry twice. -/
theorem complement_transmitted
    {n : Nat}
    (h : n ≤ 131070) :
    2 ^ 16 - 1 - transmitted (65535 - foldOnce n) = n % 65535 := by
  have honce : foldOnce n = if n < 65536 then n else n - 65535 := by
    unfold foldOnce
    split <;> omega
  have hmod : n % 65535 = if n < 65535 then n else if n < 131070 then n - 65535 else 0 := by
    split
    · omega
    · split <;> omega
  rw [honce, hmod]
  unfold transmitted
  split_ifs <;> omega

/-- What the sum over a header alone is complemented back to. -/
theorem hdrCksum_not
    (hraw : RawCksum rteRawCksum)
    {mbuf : Mbuf} {hdr : Ipv4Hdr} {hdrOffset hdrLen : U16} :
    (~~~(ipv4GeneralL4Cksum rteRawCksum mbuf [] hdr hdrOffset hdrLen)).toNat =
      hdrSum hdr ((mbuf.data.drop hdrOffset.toNat).take hdrLen.toNat) hdrLen := by
  obtain ⟨hval, -⟩ := ipv4GeneralL4Cksum_toNat hraw mbuf [] hdr hdrOffset hdrLen
  have hpsd : psdSum hdr hdrLen ≤ 65535 := folded_le _
  have hone := folded_le (wordSum ((mbuf.data.drop hdrOffset.toNat).take hdrLen.toNat))
  simp only [l4Parts, chainParts, partSum, Nat.add_zero] at hval
  rw [BitVec.toNat_not, hval, hdrSum]
  exact complement_transmitted (by omega)

theorem ipv4UpdateGeneralL4Cksum_toNat
    (hraw : RawCksum rteRawCksum)
    (cksumIn : U16) (data : Chain)
    (hlen : (chainPktLen data).toNat < 65536) :
    (ipv4UpdateGeneralL4Cksum rteRawCksum cksumIn data).toNat =
        transmitted (65535 -
          foldOnce ((~~~cksumIn).toNat + (rteCpuToBe16 ((chainPktLen data).truncate 16)).toNat +
            partSum (chainParts data (chainPktLen data).toNat))) ∧
      (~~~cksumIn).toNat + (rteCpuToBe16 ((chainPktLen data).truncate 16)).toNat +
        partSum (chainParts data (chainPktLen data).toNat) < 2 ^ 32 := by
  have hin := (~~~cksumIn).isLt
  have hbe := (rteCpuToBe16 ((chainPktLen data).truncate 16)).isLt
  have hparts := partSum_chainParts_le data (chainPktLen data).toNat
  have hbound : (~~~cksumIn).toNat + (rteCpuToBe16 ((chainPktLen data).truncate 16)).toNat +
      partSum (chainParts data (chainPktLen data).toNat) < 2 ^ 32 := by
    omega
  have hsecond := add_zeroExtend (c := (~~~cksumIn).zeroExtend 32)
    (x := rteCpuToBe16 ((chainPktLen data).truncate 16))
    (by rw [zeroExtend_toNat]; omega)
  rw [zeroExtend_toNat] at hsecond
  refine ⟨?_, hbound⟩
  simp only [ipv4UpdateGeneralL4Cksum]
  rw [wrapCksum_toNat, cksumMbufs_toNat hraw (by rw [hsecond]; omega), hsecond]

end Headers

section Packets

variable {rteRawCksum : List UInt8 → U16}

/-- The sums of a packet come out right. -/
def PacketSums (mbuf : Mbuf) (next : Chain) (hdr : Ipv4Hdr) (l4Offset l4Length : U16) : Prop :=
  SumsRight (psdSum hdr l4Length) false (l4Parts mbuf next l4Offset l4Length)

instance (mbuf : Mbuf) (next : Chain) (hdr : Ipv4Hdr) (l4Offset l4Length : U16) :
    Decidable (PacketSums mbuf next hdr l4Offset l4Length) :=
  inferInstanceAs (Decidable (SumsRight _ _ _))

/-- The sums of the data that is added to a header come out right. -/
def DataSums (hdr : Ipv4Hdr) (hdrBytes : List UInt8) (hdrLen : U16) (data : Chain) : Prop :=
  SumsRight
    (hdrSum hdr hdrBytes hdrLen + (rteCpuToBe16 ((chainPktLen data).truncate 16)).toNat)
    (oddLength hdrBytes) (chainParts data (chainPktLen data).toNat)

instance (hdr : Ipv4Hdr) (hdrBytes : List UInt8) (hdrLen : U16) (data : Chain) :
    Decidable (DataSums hdr hdrBytes hdrLen data) :=
  inferInstanceAs (Decidable (SumsRight _ _ _))

theorem general_agrees
    (hraw : RawCksum rteRawCksum)
    (mbuf : Mbuf) (next : Chain) (hdr : Ipv4Hdr) (l4Offset l4Length : U16) :
    networkOrder (ipv4GeneralL4Cksum rteRawCksum mbuf next hdr l4Offset l4Length) =
        transmitted (rfc1071 (psdHeader hdr l4Length ++ l4Bytes mbuf next l4Offset l4Length)) ↔
      PacketSums mbuf next hdr l4Offset l4Length := by
  obtain ⟨hval, hlt⟩ := ipv4GeneralL4Cksum_toNat hraw mbuf next hdr l4Offset l4Length
  refine cksum_agrees hval hlt ?_
  have hparts := wordSum_flatten false (l4Parts mbuf next l4Offset l4Length)
  rw [l4Parts_flatten] at hparts
  rw [wordSum_psdHeader, psdSum, folded_cast, ← hparts]
  rfl

/-- A chain whose first mbuf says how long it is. -/
def ChainLen (data : Chain) : Prop :=
  (chainPktLen data).toNat = (chainBytes data).length

instance (data : Chain) : Decidable (ChainLen data) :=
  inferInstanceAs (Decidable (_ = _))

theorem update_agrees
    (hraw : RawCksum rteRawCksum)
    {mbuf : Mbuf} {hdr : Ipv4Hdr} {hdrOffset hdrLen l4Length : U16} {data : Chain}
    (hdata : ChainLen data)
    (htotal : hdrLen.toNat + (chainBytes data).length = l4Length.toNat) :
    networkOrder (ipv4UpdateGeneralL4Cksum rteRawCksum
          (ipv4GeneralL4Cksum rteRawCksum mbuf [] hdr hdrOffset hdrLen) data) =
        transmitted (rfc1071 (psdHeader hdr l4Length ++
          ((mbuf.data.drop hdrOffset.toNat).take hdrLen.toNat ++ chainBytes data))) ↔
      DataSums hdr ((mbuf.data.drop hdrOffset.toNat).take hdrLen.toNat) hdrLen data := by
  have hlt := l4Length.isLt
  unfold ChainLen at hdata
  obtain ⟨hval, hbound⟩ := ipv4UpdateGeneralL4Cksum_toNat hraw
    (ipv4GeneralL4Cksum rteRawCksum mbuf [] hdr hdrOffset hdrLen) data (by omega)
  rw [hdrCksum_not hraw] at hval hbound
  refine cksum_agrees hval hbound ?_
  have hparts := wordSum_flatten (oddLength ((mbuf.data.drop hdrOffset.toNat).take hdrLen.toNat))
    (chainParts data (chainPktLen data).toNat)
  rw [chainParts_flatten, hdata, List.take_length] at hparts
  have hlen : (((chainPktLen data).truncate 16 : U16)).toNat = (chainBytes data).length := by
    rw [BitVec.truncate_eq_setWidth, BitVec.toNat_setWidth, hdata]
    omega
  have hmod : ∀ n : Nat, ((n % 65535 : Nat) : Ones) = (n : Ones) := by
    intro n
    rw [ZMod.natCast_eq_natCast_iff, Nat.ModEq, Nat.mod_mod]
  rw [hdata, ← hparts, wordSum_psdHeader, wordSum_append, wordSum_psdHeader_cast]
  push_cast
  rw [rteCpuToBe16_cast, hlen, hdrSum, hmod]
  push_cast
  rw [psdSum, folded_cast, folded_cast, wordSum_psdHeader_cast, ← htotal]
  push_cast
  ring

/-- Something of a pseudo-header with a length is not zero. -/
theorem wordSum_psdHeader_pos
    {hdr : Ipv4Hdr} {l4Len : U16}
    (hlen : 0 < l4Len.toNat) (bs : List UInt8) :
    wordSum (psdHeader hdr l4Len ++ bs) ≠ 0 := by
  have hle : (rteCpuToBe16 l4Len).toNat ≤ wordSum (psdHeader hdr l4Len ++ bs) := by
    simp only [psdHeader, bytes32, bytes16, List.cons_append, List.nil_append,
      wordSum_cons_cons]
    have hbytes := bytes16_toNat (rteCpuToBe16 l4Len)
    rw [hbytes.1, hbytes.2]
    omega
  rw [rteCpuToBe16_toNat] at hle
  omega

theorem cksumValid_iff
    {bs : List UInt8}
    (hpos : wordSum bs ≠ 0) :
    CksumValid bs ↔ (wordSum bs : Ones) = 0 := by
  have hbe : wordSumBe bs ≠ 0 := fun h => hpos (wordSumBe_eq_zero.1 h)
  have hcast : ((wordSumBe bs : Nat) : Ones) = 0 ↔ (wordSum bs : Ones) = 0 := by
    rw [wordSumBe_eq]
    constructor
    · intro h
      have hmul := congrArg (fun x : Ones => 256 * x) h
      simp only [← mul_assoc, ones_sq, one_mul, mul_zero] at hmul
      exact hmul
    · intro h
      rw [h, mul_zero]
  rw [← hcast, ZMod.natCast_eq_zero_iff, CksumValid, folded, if_neg hbe]
  omega

/-- The receive check is exact for packets whose sums come out right. -/
theorem receiveCheck_iff
    (hraw : RawCksum rteRawCksum)
    {mbuf : Mbuf} {next : Chain} {hdr : Ipv4Hdr} {l4Len : U16}
    (hlen : 0 < l4Len.toNat)
    (hsums : PacketSums mbuf next hdr 0 l4Len) :
    receiveCheck rteRawCksum mbuf next hdr l4Len = true ↔
      CksumValid (psdHeader hdr l4Len ++ l4Bytes mbuf next 0 l4Len) := by
  have hagrees := (general_agrees hraw mbuf next hdr 0 l4Len).2 hsums
  obtain ⟨hval, -⟩ := ipv4GeneralL4Cksum_toNat hraw mbuf next hdr 0 l4Len
  have hpos : 0 < (ipv4GeneralL4Cksum rteRawCksum mbuf next hdr 0 l4Len).toNat := by
    rw [hval]
    exact transmitted_pos
  rw [networkOrder_eq_iff hpos] at hagrees
  rw [cksumValid_iff (wordSum_psdHeader_pos hlen _), receiveCheck, decide_eq_true_eq]
  constructor
  · intro h
    rw [h] at hagrees
    have hzero : ((0xffff : U16).toNat : Ones) = 0 := by decide
    rw [hzero, zero_eq_neg] at hagrees
    exact hagrees
  · intro h
    rw [h, neg_zero] at hagrees
    have hlt := (ipv4GeneralL4Cksum rteRawCksum mbuf next hdr 0 l4Len).isLt
    rw [ZMod.natCast_eq_zero_iff] at hagrees
    refine BitVec.eq_of_toNat_eq ?_
    have hmax : (0xffff : U16).toNat = 65535 := rfl
    rw [hmax]
    omega

/-- A packet with its checksum, when that of the packet with a zero in its place was right. -/
theorem cksumValid_of_agrees
    {r : U16} {hdr : Ipv4Hdr} {l4Len : U16} {before after : List UInt8}
    (hpos : 0 < r.toNat)
    (hlen : 0 < l4Len.toNat)
    (heven : oddLength before = false)
    (h :
      networkOrder r =
        transmitted (rfc1071 (psdHeader hdr l4Len ++ (before ++ (bytes16 0 ++ after))))) :
    CksumValid (psdHeader hdr l4Len ++ (before ++ (bytes16 r ++ after))) := by
  rw [networkOrder_eq_iff hpos] at h
  rw [cksumValid_iff (wordSum_psdHeader_pos hlen _)]
  have hsum : ∀ x : U16, (wordSum (psdHeader hdr l4Len ++ (before ++ (bytes16 x ++ after))) :
      Ones) = (wordSum (psdHeader hdr l4Len) : Ones) + ((wordSum before : Ones) +
        ((x.toNat : Ones) + (wordSum after : Ones))) := by
    intro x
    have hfield : oddLength (bytes16 x) = false := by
      simp [oddLength, bytes16]
    rw [wordSum_psdHeader, wordSum_append before, heven, wordSum_append (bytes16 x), hfield,
      wordSum_bytes16]
    rfl
  rw [hsum] at h ⊢
  have hzero : ((0 : U16).toNat : Ones) = 0 := rfl
  rw [hzero, zero_add] at h
  rw [h]
  ring

/-- The checksum that is sent is never zero. -/
theorem sentCksum_pos
    (hraw : RawCksum rteRawCksum)
    {mbuf : Mbuf} {hdr : Ipv4Hdr} {hdrOffset hdrLen : U16} {data : Chain}
    (hdata : (chainPktLen data).toNat < 65536) :
    0 < (sentCksum rteRawCksum mbuf hdr hdrOffset hdrLen data).toNat := by
  unfold sentCksum
  simp only
  split
  · rw [(ipv4GeneralL4Cksum_toNat hraw mbuf [] hdr hdrOffset hdrLen).1]
    exact transmitted_pos
  · rw [(ipv4UpdateGeneralL4Cksum_toNat hraw _ data hdata).1]
    exact transmitted_pos

/-- The sums over a packet that is sent come out right: two sums always do. -/
def SentSums (hdr : Ipv4Hdr) (hdrBytes : List UInt8) (hdrLen : U16) (data : Chain) : Prop :=
  data ≠ [] → DataSums hdr hdrBytes hdrLen data

instance (hdr : Ipv4Hdr) (hdrBytes : List UInt8) (hdrLen : U16) (data : Chain) :
    Decidable (SentSums hdr hdrBytes hdrLen data) :=
  inferInstanceAs (Decidable (_ → _))

/-- A header alone is a single part. -/
theorem packetSums_header
    (mbuf : Mbuf) (hdr : Ipv4Hdr) (hdrOffset hdrLen : U16) :
    PacketSums mbuf [] hdr hdrOffset hdrLen := by
  have hpsd : psdSum hdr hdrLen ≤ 65535 := folded_le _
  have hone := folded_le (wordSum ((mbuf.data.drop hdrOffset.toNat).take hdrLen.toNat))
  refine ⟨?_, ?_⟩
  · simp only [l4Parts, chainParts, partSum, Nat.add_zero]
    omega
  · simp [l4Parts, chainParts, oddPartSum]

theorem sentCksum_agrees
    (hraw : RawCksum rteRawCksum)
    {mbuf : Mbuf} {hdr : Ipv4Hdr} {hdrOffset hdrLen l4Length : U16} {data : Chain}
    (hdata : ChainLen data)
    (htotal : hdrLen.toNat + (chainBytes data).length = l4Length.toNat) :
    networkOrder (sentCksum rteRawCksum mbuf hdr hdrOffset hdrLen data) =
        transmitted (rfc1071 (psdHeader hdr l4Length ++
          ((mbuf.data.drop hdrOffset.toNat).take hdrLen.toNat ++ chainBytes data))) ↔
      SentSums hdr ((mbuf.data.drop hdrOffset.toNat).take hdrLen.toNat) hdrLen data := by
  unfold sentCksum SentSums
  simp only
  split
  · rename_i hnone
    have hlen : hdrLen = l4Length := by
      refine BitVec.eq_of_toNat_eq ?_
      rw [← htotal, hnone]
      rfl
    have hagrees := general_agrees hraw mbuf [] hdr hdrOffset hdrLen
    rw [hlen] at hagrees ⊢
    simp only [l4Bytes, chainBytes_nil, List.append_nil] at hagrees
    rw [hnone, chainBytes_nil, List.append_nil]
    exact ⟨fun _ hne => absurd rfl hne,
      fun _ => hagrees.2 (packetSums_header mbuf hdr hdrOffset l4Length)⟩
  · rename_i hsome
    rw [update_agrees hraw hdata htotal]
    exact ⟨fun h _ => h, fun h => h hsome⟩

end Packets

section Results

variable (rteRawCksum : List UInt8 → U16)

/-- A packet on its way from a sender to a receiver, each with its own mbufs. -/
structure Transfer where
  hdr : Ipv4Hdr
  /-- the mbuf that the header is built in -/
  hdrMbuf : Mbuf
  hdrOffset : U16
  hdrLen : U16
  /-- the header in front of the checksum and after it -/
  before : List UInt8
  after : List UInt8
  data : Chain
  /-- the mbufs that the receiver is given -/
  mbuf : Mbuf
  next : Chain
  l4Len : U16

/-- The header has its checksum, still zero, at an even offset; the lengths are as they say. -/
structure Transfer.Built (t : Transfer) : Prop where
  hdrBytes :
    (t.hdrMbuf.data.drop t.hdrOffset.toNat).take t.hdrLen.toNat =
      t.before ++ (bytes16 0 ++ t.after)
  even : oddLength t.before = false
  dataLen : ChainLen t.data
  total : t.hdrLen.toNat + (chainBytes t.data).length = t.l4Len.toNat
  hdrPos : 0 < t.hdrLen.toNat

/-- The receiver gets what was sent, in mbufs of any sizes. -/
def Transfer.Arrives (t : Transfer) : Prop :=
  l4Bytes t.mbuf t.next 0 t.l4Len =
    t.before ++ (bytes16 (sentCksum rteRawCksum t.hdrMbuf t.hdr t.hdrOffset t.hdrLen t.data) ++
      t.after) ++ chainBytes t.data

/-- The sums of the sender and of the receiver come out right. -/
def Transfer.SumsRight (t : Transfer) : Prop :=
  SentSums t.hdr (t.before ++ (bytes16 0 ++ t.after)) t.hdrLen t.data ∧
    PacketSums t.mbuf t.next t.hdr 0 t.l4Len

instance (t : Transfer) : Decidable t.SumsRight :=
  inferInstanceAs (Decidable (_ ∧ _))

/--
The checksum over a packet, and that over a header updated with its data, are the RFC 1071
checksums exactly when the sums of the parts come out right; then the check of the receiver
is exact, and what is sent passes it.
-/
theorem l4Cksum_ok
    (hraw : RawCksum rteRawCksum) :
    (∀ (mbuf : Mbuf) (next : Chain) (hdr : Ipv4Hdr) (l4Offset l4Length : U16),
      l4Offset.toNat ≤ mbuf.data.length →
      (networkOrder (ipv4GeneralL4Cksum rteRawCksum mbuf next hdr l4Offset l4Length) =
          transmitted
            (rfc1071 (psdHeader hdr l4Length ++ l4Bytes mbuf next l4Offset l4Length)) ↔
        PacketSums mbuf next hdr l4Offset l4Length)) ∧
    (∀ (mbuf : Mbuf) (hdr : Ipv4Hdr) (hdrOffset hdrLen l4Length : U16) (data : Chain),
      hdrOffset.toNat ≤ mbuf.data.length → ChainLen data →
      hdrLen.toNat + (chainBytes data).length = l4Length.toNat →
      (networkOrder (sentCksum rteRawCksum mbuf hdr hdrOffset hdrLen data) =
          transmitted (rfc1071 (psdHeader hdr l4Length ++
            ((mbuf.data.drop hdrOffset.toNat).take hdrLen.toNat ++ chainBytes data))) ↔
        SentSums hdr ((mbuf.data.drop hdrOffset.toNat).take hdrLen.toNat) hdrLen data)) ∧
    (∀ (mbuf : Mbuf) (next : Chain) (hdr : Ipv4Hdr) (l4Len : U16),
      0 < l4Len.toNat → PacketSums mbuf next hdr 0 l4Len →
      (receiveCheck rteRawCksum mbuf next hdr l4Len = true ↔
        CksumValid (psdHeader hdr l4Len ++ l4Bytes mbuf next 0 l4Len))) ∧
    (∀ t : Transfer, t.Built → t.Arrives rteRawCksum → t.SumsRight →
      receiveCheck rteRawCksum t.mbuf t.next t.hdr t.l4Len = true) := by
  refine ⟨fun mbuf next hdr off len _ => general_agrees hraw mbuf next hdr off len,
    fun mbuf hdr off hdrLen len data _ hdata htotal => sentCksum_agrees hraw hdata htotal,
    fun mbuf next hdr len hlen hsums => receiveCheck_iff hraw hlen hsums, ?_⟩
  intro t hbuilt harrives hsums
  have hlen : 0 < t.l4Len.toNat := by
    have htotal := hbuilt.total
    have hpos := hbuilt.hdrPos
    omega
  have hdataLen : (chainPktLen t.data).toNat < 65536 := by
    have hlt := t.l4Len.isLt
    have htotal := hbuilt.total
    have hdata : (chainPktLen t.data).toNat = (chainBytes t.data).length := hbuilt.dataLen
    omega
  have hsent := (sentCksum_agrees hraw hbuilt.dataLen hbuilt.total).2
    (hbuilt.hdrBytes ▸ hsums.1)
  rw [hbuilt.hdrBytes, List.append_assoc, List.append_assoc] at hsent
  refine (receiveCheck_iff hraw hlen hsums.2).2 ?_
  rw [harrives, List.append_assoc, List.append_assoc]
  exact cksumValid_of_agrees (sentCksum_pos hraw hdataLen) hlen hbuilt.even hsent

end Results

section Inputs

/-- A function that behaves as `rte_raw_cksum()` does. -/
def rawSum (buf : List UInt8) : U16 :=
  BitVec.ofNat 16 (folded (wordSum buf))

theorem rawSum_ok :
    RawCksum rawSum := by
  intro buf
  have hle := folded_le (wordSum buf)
  rw [rawSum, BitVec.toNat_ofNat]
  exact Nat.mod_eq_of_lt (by omega)

/-- From 10.0.0.1 to 10.0.0.2. -/
def sampleHdr : Ipv4Hdr :=
  { srcAddr := 0x0100000a, dstAddr := 0x0200000a, nextProtoId := 6 }

/-- An mbuf of its own. -/
def sampleMbuf (data : List UInt8) : Mbuf :=
  { id := 0, data := data, pktLen := BitVec.ofNat 32 data.length, nbSegs := 1 }

/-- A TCP header up to its checksum. -/
def sampleBefore : List UInt8 :=
  [0x30, 0x39, 0, 80, 0, 0, 0, 1, 0, 0, 0, 101, 0x50, 0x18, 4, 0]

/-- Three bytes are sent in two mbufs; the receiver's first mbuf ends after `first` bytes. -/
def sampleTransfer (first : Nat) : Transfer :=
  let data : Chain := [{ sampleMbuf [1, 2] with pktLen := 3, nbSegs := 2 }, sampleMbuf [3]]
  let hdrMbuf := sampleMbuf (sampleBefore ++ [0, 0, 0, 0])
  let packet := sampleBefore ++
    bytes16 (sentCksum rawSum hdrMbuf sampleHdr 0 20 data) ++ [0, 0, 1, 2, 3]
  { hdr := sampleHdr
    hdrMbuf := hdrMbuf
    hdrOffset := 0
    hdrLen := 20
    before := sampleBefore
    after := [0, 0]
    data := data
    mbuf := sampleMbuf (packet.take first)
    next := [sampleMbuf (packet.drop first)]
    l4Len := 23 }

theorem sampleTransfer_arrives
    (first : Nat) :
    (sampleTransfer first).Built ∧ (sampleTransfer first).Arrives rawSum := by
  have heven : oddLength sampleBefore = false := by decide
  refine ⟨⟨rfl, heven, rfl, rfl, (by decide : 0 < (20 : U16).toNat)⟩, ?_⟩
  simp only [Transfer.Arrives, sampleTransfer, l4Bytes, sampleMbuf, chainBytes_cons,
    chainBytes_nil, List.append_nil]
  change ((List.take first _).drop 0 ++ List.drop first _).take 23 = _
  rw [List.drop_zero, List.take_append_drop]
  rfl

theorem l4Cksum_ok_even :
    receiveCheck rawSum (sampleTransfer 22).mbuf (sampleTransfer 22).next sampleHdr 23 = true :=
  (l4Cksum_ok rawSum rawSum_ok).2.2.2 (sampleTransfer 22) (sampleTransfer_arrives 22).1
    (sampleTransfer_arrives 22).2 (by decide +kernel)

/-- Two mbufs whose sums and that of the pseudo-header add up to `0x1ffff`. -/
def carryMbufs : Mbuf × Chain :=
  (sampleMbuf [0xff, 0xff], [sampleMbuf [0xec, 0xf2]])

/--
A packet is dropped when it arrives in an mbuf that ends after an odd number of bytes; and a
sum that carries twice is not the checksum.
-/
theorem oddMbuf_corrupts :
    ((sampleTransfer 21).Built ∧ (sampleTransfer 21).Arrives rawSum ∧
      CksumValid (psdHeader sampleHdr 23 ++
        l4Bytes (sampleTransfer 21).mbuf (sampleTransfer 21).next 0 23) ∧
      receiveCheck rawSum (sampleTransfer 21).mbuf (sampleTransfer 21).next sampleHdr 23 =
        false) ∧
    networkOrder (ipv4GeneralL4Cksum rawSum carryMbufs.1 carryMbufs.2 sampleHdr 0 4) ≠
      transmitted (rfc1071 (psdHeader sampleHdr 4 ++ l4Bytes carryMbufs.1 carryMbufs.2 0 4)) := by
  refine ⟨⟨(sampleTransfer_arrives 21).1, (sampleTransfer_arrives 21).2, ?_, ?_⟩, ?_⟩
  · unfold CksumValid
    decide +kernel
  · decide +kernel
  · decide +kernel

end Inputs

end L4Checksum
end Warp17
