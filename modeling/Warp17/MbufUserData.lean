import Warp17.MbufChains
import Warp17.PackedWords

/-!
# The user data of an mbuf

`udata64` carries what the layers say about an mbuf: whether and where a timestamp has to be
written just before it is sent, and where the checksum is that has to be updated then.  All of
it is packed into one word, and every macro that writes a value ors it in.

**Results**
- `tstampTxPkt_offset`, `tstampTxPkt_size`: a mark is or-ed into what was there, cut to 16
  bits; on a fresh mbuf it reads as it was given (`fresh_tstampTxPkt_offset`).
- `marks_append`: the marks of a chain, with their offsets from its first byte.
-/

namespace Warp17
namespace MbufUserData

open SequenceComparison MbufChains PackedWords

/-- `uint64_t`. -/
abbrev U64 := BitVec 64

/-- An mbuf with its `udata64`. -/
structure DataMbuf extends Mbuf where
  udata64 : U64
deriving DecidableEq, Repr

/-- A chain of mbufs with their user data. -/
abbrev DataChain := List DataMbuf

section Macros

variable (u : U64)

/-- `DATA_SET_TSTAMP_OFFSET`: the lowest 16 bits. -/
def dataSetTstampOffset (offset : U32) : U64 :=
  orBits 0 16 u (offset.zeroExtend 64)

/-- `DATA_SET_TSTAMP_SIZE`: the next 16 bits. -/
def dataSetTstampSize (size : U32) : U64 :=
  orBits 16 16 u (size.zeroExtend 64)

/-- `DATA_SET_CKSUM_OFFSET`: the third 16 bits. -/
def dataSetCksumOffset (offset : U32) : U64 :=
  orBits 32 16 u (offset.zeroExtend 64)

/-- `DATA_GET_TSTAMP_OFFSET`. -/
def dataGetTstampOffset : U32 :=
  (getBits 0 16 u).truncate 32

/-- `DATA_GET_TSTAMP_SIZE`. -/
def dataGetTstampSize : U32 :=
  (getBits 16 16 u).truncate 32

/-- `DATA_GET_CKSUM_OFFSET`. -/
def dataGetCksumOffset : U32 :=
  (getBits 32 16 u).truncate 32

/-- `DATA_SET_TSTAMP`: `TPG_APP_UINT64_MBUF_FLAG_TSTAMP` is bit 49. -/
def dataSetTstamp : U64 :=
  setFlag 49 u

/-- `DATA_CLEAR_TSTAMP`. -/
def dataClearTstamp : U64 :=
  clearFlag 49 u

/-- `DATA_IS_TSTAMP`. -/
def dataIsTstamp : Bool :=
  hasFlag 49 u

/-- `DATA_SET_TSTAMP_MULTI`: `TPG_APP_UINT64_MBUF_FLAG_TSTAMP_MULTI` is bit 50. -/
def dataSetTstampMulti : U64 :=
  setFlag 50 u

/-- `DATA_IS_TSTAMP_MULTI`. -/
def dataIsTstampMulti : Bool :=
  hasFlag 50 u

/-- `tstamp_tx_pkt()`. -/
def tstampTxPkt (offset size : U32) : U64 :=
  dataSetTstamp (dataSetTstampSize (dataSetTstampOffset u offset) size)

/-- `tstamp_write_cksum_offset()`. -/
def tstampWriteCksumOffset (chksumOffset : U32) : U64 :=
  if chksumOffset ≠ 0 then
    dataSetCksumOffset u (chksumOffset + dataGetCksumOffset u)
  else
    u

end Macros

/-- The flags are the constants of the source. -/
example : (BitVec.twoPow 64 49, BitVec.twoPow 64 50) =
    (0x0002000000000000#64, 0x0004000000000000#64) := by
  decide

section Reading

variable (u : U64) (offset size : U32)

/-- The lowest 16 bits of a 32-bit value that was widened to 64 bits. -/
theorem setWidth_and_lowMask
    (x : U32) :
    (x.zeroExtend 64 &&& lowMask 64 16).setWidth 32 = x &&& lowMask 32 16 := by
  apply BitVec.eq_of_getLsbD_eq
  intro i hi
  have hwide : i < 64 := by omega
  rw [BitVec.zeroExtend_eq_setWidth, BitVec.getLsbD_setWidth,
    BitVec.getLsbD_and, BitVec.getLsbD_and, BitVec.getLsbD_setWidth, getLsbD_lowMask,
    getLsbD_lowMask]
  simp [hi, hwide]

theorem and_lowMask_toNat
    (x : U32) :
    (x &&& lowMask 32 16).toNat = x.toNat % 2 ^ 16 := by
  rw [BitVec.toNat_and]
  exact Nat.and_two_pow_sub_one_eq_mod x.toNat 16

@[simp] theorem tstampTxPkt_offset :
    dataGetTstampOffset (tstampTxPkt u offset size) =
      dataGetTstampOffset u ||| (offset &&& lowMask 32 16) := by
  rw [dataGetTstampOffset, tstampTxPkt, dataSetTstamp, getBits_setFlag _ (by omega),
    dataSetTstampSize, getBits_orBits_of_disjoint _ _ (by omega) (by omega),
    dataSetTstampOffset, getBits_orBits_self _ _ (by omega), BitVec.truncate_eq_setWidth,
    BitVec.setWidth_or, setWidth_and_lowMask]
  rfl

@[simp] theorem tstampTxPkt_size :
    dataGetTstampSize (tstampTxPkt u offset size) =
      dataGetTstampSize u ||| (size &&& lowMask 32 16) := by
  rw [dataGetTstampSize, tstampTxPkt, dataSetTstamp, getBits_setFlag _ (by omega),
    dataSetTstampSize, getBits_orBits_self _ _ (by omega), BitVec.truncate_eq_setWidth,
    BitVec.setWidth_or, setWidth_and_lowMask, dataSetTstampOffset,
    getBits_orBits_of_disjoint _ _ (by omega) (by omega)]
  rfl

@[simp] theorem tstampTxPkt_isTstamp :
    dataIsTstamp (tstampTxPkt u offset size) = true := by
  rw [dataIsTstamp, tstampTxPkt, dataSetTstamp, hasFlag_setFlag _ (by omega)]
  simp

@[simp] theorem dataSetTstampMulti_offset :
    dataGetTstampOffset (dataSetTstampMulti u) = dataGetTstampOffset u := by
  rw [dataGetTstampOffset, dataSetTstampMulti, getBits_setFlag _ (by omega)]
  rfl

@[simp] theorem dataSetTstampMulti_size :
    dataGetTstampSize (dataSetTstampMulti u) = dataGetTstampSize u := by
  rw [dataGetTstampSize, dataSetTstampMulti, getBits_setFlag _ (by omega)]
  rfl

@[simp] theorem dataSetTstampMulti_isTstamp :
    dataIsTstamp (dataSetTstampMulti u) = dataIsTstamp u := by
  rw [dataIsTstamp, dataSetTstampMulti, hasFlag_setFlag _ (by omega)]
  simp [dataIsTstamp]

/-- A fresh mbuf has no mark. -/
@[simp] theorem fresh_isTstamp :
    dataIsTstamp 0#64 = false := by
  simp [dataIsTstamp]

@[simp] theorem fresh_offset :
    dataGetTstampOffset 0#64 = 0#32 := by
  simp [dataGetTstampOffset]

@[simp] theorem fresh_size :
    dataGetTstampSize 0#64 = 0#32 := by
  simp [dataGetTstampSize]

/-- A value of 16 bits is not cut when it is written again. -/
theorem getBits_and_lowMask
    (pos : Nat) :
    (getBits pos 16 u).truncate 32 &&& lowMask 32 16 = (getBits pos 16 u).truncate 32 := by
  apply BitVec.eq_of_getLsbD_eq
  intro i hi
  rw [BitVec.getLsbD_and, getLsbD_lowMask, BitVec.truncate_eq_setWidth, BitVec.getLsbD_setWidth,
    getLsbD_getBits]
  by_cases hlow : i < 16
  · simp [hi, hlow]
  · simp [hlow]

theorem dataGetTstampOffset_lt :
    (dataGetTstampOffset u).toNat < 2 ^ 16 := by
  rw [dataGetTstampOffset, ← getBits_and_lowMask, and_lowMask_toNat]
  exact Nat.mod_lt _ (by decide)

theorem dataGetTstampSize_and_lowMask :
    dataGetTstampSize u &&& lowMask 32 16 = dataGetTstampSize u :=
  getBits_and_lowMask u 16

/-- A mark on a fresh mbuf reads as it was given, cut to 16 bits. -/
theorem fresh_tstampTxPkt_offset :
    (dataGetTstampOffset (tstampTxPkt 0#64 offset size)).toNat = offset.toNat % 2 ^ 16 := by
  rw [tstampTxPkt_offset, fresh_offset, BitVec.zero_or, and_lowMask_toNat]

theorem fresh_tstampTxPkt_size :
    dataGetTstampSize (tstampTxPkt 0#64 offset (dataGetTstampSize u)) = dataGetTstampSize u := by
  rw [tstampTxPkt_size, fresh_size, BitVec.zero_or, dataGetTstampSize_and_lowMask]

end Reading

section Marks

/-- The bytes of a chain, in order. -/
def dataBytes (c : DataChain) : List UInt8 :=
  c.flatMap fun m => m.data

/-- The mark of one mbuf: the offset of the byte where a timestamp goes, and its size. -/
def markOf (m : DataMbuf) : List (Nat × U32) :=
  if dataIsTstamp m.udata64 then
    [((dataGetTstampOffset m.udata64).toNat, dataGetTstampSize m.udata64)]
  else
    []

/-- The same marks, `n` bytes further on. -/
def shiftMarks (n : Nat) (l : List (Nat × U32)) : List (Nat × U32) :=
  l.map fun x => (n + x.1, x.2)

/-- The marks of a chain, with their offsets from its first byte. -/
def marks : DataChain → List (Nat × U32)
  | [] => []
  | m :: rest => markOf m ++ shiftMarks m.data.length (marks rest)

@[simp] theorem dataBytes_nil :
    dataBytes [] = [] := by
  rfl

@[simp] theorem dataBytes_cons
    (m : DataMbuf) (c : DataChain) :
    dataBytes (m :: c) = m.data ++ dataBytes c := by
  rfl

@[simp] theorem dataBytes_append
    (c d : DataChain) :
    dataBytes (c ++ d) = dataBytes c ++ dataBytes d := by
  simp [dataBytes]

theorem shiftMarks_shiftMarks
    (a b : Nat) (l : List (Nat × U32)) :
    shiftMarks a (shiftMarks b l) = shiftMarks (a + b) l := by
  simp [shiftMarks, Nat.add_assoc]

@[simp] theorem shiftMarks_zero
    (l : List (Nat × U32)) :
    shiftMarks 0 l = l := by
  simp [shiftMarks]

@[simp] theorem shiftMarks_append
    (n : Nat) (l r : List (Nat × U32)) :
    shiftMarks n (l ++ r) = shiftMarks n l ++ shiftMarks n r := by
  simp [shiftMarks]

@[simp] theorem shiftMarks_nil
    (n : Nat) :
    shiftMarks n [] = [] := by
  rfl

theorem mem_shiftMarks
    {n : Nat} {l : List (Nat × U32)} {x : Nat × U32} :
    x ∈ shiftMarks n l ↔ n ≤ x.1 ∧ (x.1 - n, x.2) ∈ l := by
  obtain ⟨p, s⟩ := x
  simp only [shiftMarks, List.mem_map, Prod.mk.injEq]
  constructor
  · rintro ⟨⟨q, t⟩, hmem, rfl, rfl⟩
    exact ⟨by omega, by simpa using hmem⟩
  · rintro ⟨hle, hmem⟩
    exact ⟨_, hmem, by omega, rfl⟩

theorem marks_append
    (c d : DataChain) :
    marks (c ++ d) = marks c ++ shiftMarks (dataBytes c).length (marks d) := by
  induction c with
  | nil =>
      simp [marks]
  | cons m rest ih =>
      simp [marks, ih, shiftMarks_shiftMarks]

end Marks

end MbufUserData
end Warp17
