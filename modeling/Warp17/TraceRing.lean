import Warp17.RingBuffers
import Warp17.WhileLoops
import Warp17.GuardedRuns
import Warp17.SequenceComparison

/-!
# The trace ring

A trace buffer is a block of bytes that holds entries of different lengths one after another,
each with a header in front of its data; headers and data wrap around the end of the block.
Adding an entry drops the oldest ones until there is room, and the dump walks from the start
of the ring to its end.  When the two positions are the same, `tb_filled` is to tell a full
ring from an empty one, but nothing sets it.

**Results**
- `traceAddRaw_spec`: an add keeps the newest entries, and the ring holds them and the new one.
- `traceDump_spec`: the dump prints the entries that the ring holds.
- `traceRing_ok`: after any adds none of which fills the ring exactly, the dump prints a suffix
  of the entries added, the last one among them.
- `exactFill_dumpsNothing`: entries that fill the ring exactly are lost.
-/

namespace Warp17
namespace TraceRing

open GuardedRuns SequenceComparison StreamSlices RingBuffers WhileLoops

section Source

/-- `trace_level_t`. -/
inductive TraceLevel
  | crit
  | error
  | info
  | log
  | debug
deriving DecidableEq, Repr

/-- The number of a level. -/
def TraceLevel.toU32 : TraceLevel → U32
  | .crit => 0
  | .error => 1
  | .info => 2
  | .log => 3
  | .debug => 4

/-- `trace_entry_hdr_t`. -/
structure TraceEntryHdr where
  tehId : U32
  tehLen : U32
  tehLvl : U32
deriving DecidableEq, Repr

/-- `sizeof(trace_entry_hdr_t)`, which is also the offset of the data. -/
abbrev hdrSize : Nat := 12

/-- A 32-bit number in memory. -/
def le32 (x : U32) : List UInt8 :=
  [UInt8.ofNat (x.toNat % 256), UInt8.ofNat (x.toNat / 256 % 256),
    UInt8.ofNat (x.toNat / 65536 % 256), UInt8.ofNat (x.toNat / 16777216)]

/-- The 32-bit number that begins a piece of memory. -/
def readLe32 : List UInt8 → U32
  | b :: b' :: b'' :: b''' :: _ =>
      BitVec.ofNat 32
        (b.toNat + 256 * b'.toNat + 65536 * b''.toNat + 16777216 * b'''.toNat)
  | _ => 0

/-- A header in memory. -/
def TraceEntryHdr.bytes (h : TraceEntryHdr) : List UInt8 :=
  le32 h.tehId ++ le32 h.tehLen ++ le32 h.tehLvl

/-- The header that begins a piece of memory. -/
def hdrOfBytes (bs : List UInt8) : TraceEntryHdr :=
  { tehId := readLe32 bs
    tehLen := readLe32 (bs.drop 4)
    tehLvl := readLe32 (bs.drop 8) }

/-- `trace_buffer_t`, enabled. -/
structure TraceBuffer where
  tbFilled : Bool
  tbSize : Nat
  tbStart : Nat
  tbEnd : Nat
  tbBuf : Nat → UInt8

/-- A sum of `uint32_t`. -/
def add32 (a b : Nat) : Nat :=
  (a + b) % 2 ^ 32

/-- `trace_get_uniq_id()` with the counter of the core; 0 is no identifier. -/
def traceGetUniqId (traceId : U32) : U32 :=
  if traceId + 1 = 0 then traceId + 2 else traceId + 1

/-- `trace_entry_hdr_peek_buf()`. -/
def traceEntryHdrPeekBuf (buffer : Nat → UInt8) (bufsize startPos : Nat) : TraceEntryHdr :=
  hdrOfBytes (readSplit bufsize buffer startPos hdrSize)

/-- The room in the ring. -/
def availableSize (tb : TraceBuffer) : Nat :=
  if tb.tbFilled then
    0
  else if tb.tbStart ≤ tb.tbEnd then
    tb.tbSize - (tb.tbEnd - tb.tbStart)
  else
    tb.tbStart - tb.tbEnd

/-- The start of the ring, and the room, while old entries are dropped. -/
structure Evict where
  start : Nat
  available : Nat

/-- Drop the first entry of the ring. -/
def dropFirst (tb : TraceBuffer) (s : Evict) : Evict :=
  let startTel := (traceEntryHdrPeekBuf tb.tbBuf tb.tbSize s.start).tehLen.toNat
  { start := add32 s.start startTel % tb.tbSize
    available := add32 s.available startTel }

/-- The result of an add. -/
inductive AddStatus
  | added
  | enospc
deriving DecidableEq, Repr

/-- An entry as it is put together: the header and the data. -/
def newTrace (id : U32) (level : TraceLevel) (data : List UInt8) : List UInt8 :=
  (TraceEntryHdr.mk id (BitVec.ofNat 32 (data.length + hdrSize)) level.toU32).bytes ++ data

/--
`trace_add_raw()`, with an identifier from `trace_get_uniq_id()`; `none` when the loop does not
end.  Every entry takes bytes of the ring, so its size is enough fuel.
-/
def traceAddRaw (tb : TraceBuffer) (id : U32) (level : TraceLevel) (data : List UInt8) :
    Option (AddStatus × TraceBuffer) :=
  let newTraceSize := add32 data.length hdrSize
  if tb.tbSize < newTraceSize then
    some (.enospc, tb)
  else
    let newStart := add32 tb.tbEnd newTraceSize % tb.tbSize
    let evicts := availableSize tb < newTraceSize
    (whileLoop (fun s : Evict => s.available < newTraceSize) (fun s => some (dropFirst tb s))
        (tb.tbSize + 1) { start := tb.tbStart, available := availableSize tb }).map
      fun s =>
        (.added,
          { tb with
            tbStart := s.start
            tbFilled := tb.tbFilled && !(evicts && decide (s.start ≠ tb.tbEnd))
            tbBuf := writeSplit tb.tbSize tb.tbBuf tb.tbEnd (newTrace id level data)
            tbEnd := newStart })

/-- What the printer is given: the level, the data and the length of the whole entry. -/
structure Printed where
  lvl : U32
  data : List UInt8
  len : U32
deriving DecidableEq, Repr

/--
`trace_entry_dump()`: the entry at a position, and the position of the next one.  The printers
ignore the length; the data is what the entry holds behind its header.
-/
def traceEntryDump (buffer : Nat → UInt8) (bufsize oldStart : Nat) : Printed × Nat :=
  let hdr := traceEntryHdrPeekBuf buffer bufsize oldStart
  let lenToCopy := (hdr.tehLen - BitVec.ofNat 32 hdrSize).toNat
  let startRaw := add32 oldStart hdrSize % bufsize
  if bufsize < add32 startRaw lenToCopy then
    ({ lvl := hdr.tehLvl
       data := slice buffer startRaw (bufsize - startRaw) ++
         slice buffer 0 (lenToCopy - (bufsize - startRaw))
       len := hdr.tehLen },
      lenToCopy - (bufsize - startRaw))
  else
    ({ lvl := hdr.tehLvl
       data := slice buffer startRaw lenToCopy
       len := hdr.tehLen },
      add32 oldStart hdr.tehLen.toNat % bufsize)

/-- A walk over the ring. -/
structure Walk where
  pos : Nat
  printed : List Printed

/-- Print one entry. -/
def walkStep (tb : TraceBuffer) (s : Walk) : Walk :=
  { pos := (traceEntryDump tb.tbBuf tb.tbSize s.pos).2
    printed := s.printed ++ [(traceEntryDump tb.tbBuf tb.tbSize s.pos).1] }

/-- The identifier of the first entry that `trace_handle_xchg_ptr()` answers with. -/
def startId (tb : TraceBuffer) : U32 :=
  if !tb.tbFilled && decide (tb.tbStart = tb.tbEnd) then
    0
  else
    (traceEntryHdrPeekBuf tb.tbBuf tb.tbSize tb.tbStart).tehId

/-- The dump of one component: nothing without a first entry, else all up to the end. -/
def traceDump (tb : TraceBuffer) : Option (List Printed) :=
  if startId tb = 0 then
    some []
  else
    (whileLoop (fun s : Walk => s.pos ≠ tb.tbEnd) (fun s => some (walkStep tb s))
        (tb.tbSize + 1) (walkStep tb { pos := tb.tbStart, printed := [] })).map Walk.printed

/-- A buffer after it was enabled. -/
def enabledBuffer (size : Nat) : TraceBuffer :=
  { tbFilled := false, tbSize := size, tbStart := 0, tbEnd := 0, tbBuf := fun _ => 0 }

end Source

section Entries

/-- An entry that was added. -/
structure TraceEntry where
  id : U32
  level : TraceLevel
  data : List UInt8
deriving DecidableEq, Repr

/-- The bytes an entry takes. -/
def TraceEntry.size (e : TraceEntry) : Nat :=
  e.data.length + hdrSize

/-- The bytes of an entry. -/
def TraceEntry.bytes (e : TraceEntry) : List UInt8 :=
  newTrace e.id e.level e.data

/-- The entry as it is printed. -/
def TraceEntry.printed (e : TraceEntry) : Printed :=
  { lvl := e.level.toU32
    data := e.data
    len := BitVec.ofNat 32 e.size }

/-- The bytes that entries take. -/
def total : List TraceEntry → Nat
  | [] => 0
  | e :: rest => e.size + total rest

/-- The oldest entries are dropped until there is room. -/
def keep (size new : Nat) : List TraceEntry → List TraceEntry
  | [] => []
  | e :: rest => if total (e :: rest) + new ≤ size then e :: rest else keep size new rest

theorem keep_suffix
    (size new : Nat) (es : List TraceEntry) :
    keep size new es <:+ es := by
  induction es with
  | nil =>
      exact List.suffix_refl _
  | cons e rest ih =>
      rw [keep]
      split
      · exact List.suffix_refl _
      · exact ih.trans (List.suffix_cons e rest)

theorem total_append
    (es es' : List TraceEntry) :
    total (es ++ es') = total es + total es' := by
  induction es with
  | nil =>
      simp [total]
  | cons e rest ih =>
      simp only [List.cons_append, total, ih]
      omega

theorem size_pos
    (e : TraceEntry) :
    0 < e.size := by
  simp [TraceEntry.size]

theorem length_le_total
    (es : List TraceEntry) :
    es.length ≤ total es := by
  induction es with
  | nil =>
      simp
  | cons e rest ih =>
      have hpos := size_pos e
      simp only [List.length_cons, total]
      omega

theorem readLe32_le32
    (x : U32) (rest : List UInt8) :
    readLe32 (le32 x ++ rest) = x := by
  have hx := x.isLt
  refine BitVec.eq_of_toNat_eq ?_
  simp only [le32, List.cons_append, List.nil_append, readLe32, BitVec.toNat_ofNat,
    UInt8.toNat_ofNat']
  omega

/-- The header of an entry is read back. -/
theorem hdrOfBytes_bytes
    (h : TraceEntryHdr) (rest : List UInt8) :
    hdrOfBytes (h.bytes ++ rest) = h := by
  have hid : readLe32 (h.bytes ++ rest) = h.tehId := by
    rw [TraceEntryHdr.bytes, List.append_assoc, List.append_assoc, readLe32_le32]
  have hlen : readLe32 ((h.bytes ++ rest).drop 4) = h.tehLen :=
    readLe32_le32 h.tehLen (le32 h.tehLvl ++ rest)
  have hlvl : readLe32 ((h.bytes ++ rest).drop 8) = h.tehLvl :=
    readLe32_le32 h.tehLvl rest
  cases h
  simp only [hdrOfBytes, hid, hlen, hlvl]

theorem length_bytes
    (e : TraceEntry) :
    e.bytes.length = e.size := by
  rw [TraceEntry.bytes, newTrace, List.length_append]
  exact Nat.add_comm _ _

end Entries

section Ring

/-- A ring that holds entries, without being full. -/
structure RingInv (tb : TraceBuffer) (held : List TraceEntry) : Prop where
  notFilled : tb.tbFilled = false
  small : tb.tbSize ≤ 2 ^ 31
  start : tb.tbStart < max 1 tb.tbSize
  room : total held < max 1 tb.tbSize
  tbEnd : tb.tbEnd = (tb.tbStart + total held) % tb.tbSize
  contents :
    slice (ring tb.tbSize tb.tbBuf) tb.tbStart (total held) = held.flatMap TraceEntry.bytes
  ids : ∀ e ∈ held, e.id ≠ 0

theorem ringInv_enabled
    {size : Nat}
    (h : size ≤ 2 ^ 31) :
    RingInv (enabledBuffer size) [] := by
  refine ⟨rfl, h, ?_, ?_, ?_, rfl, by simp⟩
  · exact Nat.lt_of_lt_of_le Nat.one_pos (Nat.le_max_left _ _)
  · exact Nat.lt_of_lt_of_le Nat.one_pos (Nat.le_max_left _ _)
  · exact (Nat.zero_mod size).symm

/-- A part of the ring that begins with an entry. -/
structure Begins (tb : TraceBuffer) (pos : Nat) (es : List TraceEntry) : Prop where
  small : tb.tbSize ≤ 2 ^ 31
  inside : pos < tb.tbSize
  fits : total es < tb.tbSize
  tbEnd : tb.tbEnd = (pos + total es) % tb.tbSize
  contents : slice (ring tb.tbSize tb.tbBuf) pos (total es) = es.flatMap TraceEntry.bytes

theorem RingInv.begins
    {tb : TraceBuffer} {held : List TraceEntry}
    (h : RingInv tb held)
    (hsize : 0 < tb.tbSize) :
    Begins tb tb.tbStart held := by
  have hmax : max 1 tb.tbSize = tb.tbSize := Nat.max_eq_right hsize
  refine ⟨h.small, ?_, ?_, h.tbEnd, h.contents⟩
  · have hstart := h.start
    rwa [hmax] at hstart
  · have hroom := h.room
    rwa [hmax] at hroom

variable {tb : TraceBuffer} {pos : Nat} {e : TraceEntry} {rest : List TraceEntry}

/-- The first entry is there, and the others come after it. -/
theorem Begins.first
    (h : Begins tb pos (e :: rest)) :
    slice (ring tb.tbSize tb.tbBuf) pos e.size = e.bytes ∧
      slice (ring tb.tbSize tb.tbBuf) (pos + e.size) (total rest) =
        rest.flatMap TraceEntry.bytes := by
  have hall := h.contents
  rw [total, ← slice_append, List.flatMap_cons] at hall
  exact List.append_inj hall (by rw [length_slice, length_bytes])

/-- The header of the first entry, and its data behind the header. -/
theorem Begins.parts
    (h : Begins tb pos (e :: rest)) :
    slice (ring tb.tbSize tb.tbBuf) pos hdrSize =
        (TraceEntryHdr.mk e.id (BitVec.ofNat 32 e.size) e.level.toU32).bytes ∧
      slice (ring tb.tbSize tb.tbBuf) (pos + hdrSize) e.data.length = e.data := by
  have hsize : e.size = hdrSize + e.data.length := Nat.add_comm _ _
  have hfirst := h.first.1
  rw [hsize, ← slice_append] at hfirst
  exact List.append_inj hfirst (by rw [length_slice]; rfl)

/-- The header of the first entry is read. -/
theorem Begins.peek
    (h : Begins tb pos (e :: rest)) :
    traceEntryHdrPeekBuf tb.tbBuf tb.tbSize pos =
      { tehId := e.id, tehLen := BitVec.ofNat 32 e.size, tehLvl := e.level.toU32 } := by
  have hfits := h.fits
  have hsize : e.size = hdrSize + e.data.length := Nat.add_comm _ _
  rw [total] at hfits
  rw [traceEntryHdrPeekBuf, readSplit_eq h.inside (by omega), h.parts.1]
  have hread := hdrOfBytes_bytes
    (TraceEntryHdr.mk e.id (BitVec.ofNat 32 e.size) e.level.toU32) []
  rwa [List.append_nil] at hread

theorem add32_of_lt
    {a b : Nat}
    (h : a + b < 2 ^ 32) :
    add32 a b = a + b :=
  Nat.mod_eq_of_lt h

theorem size_toNat
    (h : Begins tb pos (e :: rest)) :
    (BitVec.ofNat 32 e.size : U32).toNat = e.size := by
  have hfits := h.fits
  have hsmall := h.small
  rw [total] at hfits
  rw [BitVec.toNat_ofNat, Nat.mod_eq_of_lt (by omega)]

/-- Behind the first entry the ring begins with the others. -/
theorem Begins.next
    (h : Begins tb pos (e :: rest)) :
    Begins tb ((pos + e.size) % tb.tbSize) rest := by
  have hpos := h.inside
  have hfits := h.fits
  have hend := h.tbEnd
  rw [total] at hfits hend
  refine ⟨h.small, Nat.mod_lt _ (by omega), by omega, ?_, ?_⟩
  · rw [hend, Nat.mod_add_mod, Nat.add_assoc]
  · rw [slice_mod]
    exact h.first.2

/-- The room of a ring that is not full. -/
theorem Begins.available
    {es : List TraceEntry}
    (h : Begins tb tb.tbStart es)
    (hfilled : tb.tbFilled = false) :
    availableSize tb = tb.tbSize - total es := by
  have hpos := h.inside
  have hfits := h.fits
  have hend := h.tbEnd
  have hmod : (tb.tbStart + total es) % tb.tbSize =
      if tb.tbStart + total es < tb.tbSize then tb.tbStart + total es
      else tb.tbStart + total es - tb.tbSize := by
    split
    · rename_i hlt
      exact Nat.mod_eq_of_lt hlt
    · rw [Nat.mod_eq_sub_mod (by omega), Nat.mod_eq_of_lt (by omega)]
  rw [hmod] at hend
  simp only [availableSize, hfilled, Bool.false_eq_true, if_false]
  split at hend
  · rw [if_pos (by omega)]
    omega
  · rw [if_neg (by omega)]
    omega

theorem dropFirst_eq
    {available : Nat}
    (h : Begins tb pos (e :: rest))
    (havailable : available + e.size ≤ tb.tbSize) :
    dropFirst tb { start := pos, available := available } =
      { start := (pos + e.size) % tb.tbSize, available := available + e.size } := by
  have hpos := h.inside
  have hfits := h.fits
  have hsmall := h.small
  rw [total] at hfits
  simp only [dropFirst, h.peek, size_toNat h]
  rw [add32_of_lt (by omega), add32_of_lt (by omega)]

/-- The entries that are kept begin where the loop stops. -/
theorem evict_spec
    {es : List TraceEntry} {new : Nat}
    (h : Begins tb tb.tbStart es)
    (hnew : new ≤ tb.tbSize) :
    ∃ s, whileLoop (fun s : Evict => s.available < new) (fun s => some (dropFirst tb s))
        (tb.tbSize + 1) { start := tb.tbStart, available := tb.tbSize - total es } = some s ∧
      Begins tb s.start (keep tb.tbSize new es) ∧
      total (keep tb.tbSize new es) + new ≤ tb.tbSize := by
  have hrun := whileLoop_total
    (fun s : Evict => decide (s.available < new)) (fun s => some (dropFirst tb s))
    (fun s => ∃ rest, Begins tb s.start rest ∧ s.available = tb.tbSize - total rest ∧
      keep tb.tbSize new es = keep tb.tbSize new rest)
    (fun s => tb.tbSize - s.available) ?_ (tb.tbSize + 1)
    (s := { start := tb.tbStart, available := tb.tbSize - total es })
    ⟨es, h, rfl, rfl⟩ (by simp only; omega)
  · obtain ⟨s, hs, ⟨rest, hbegins, havailable, hkeep⟩, hdone⟩ := hrun
    have hroom : total rest + new ≤ tb.tbSize := by
      have hfits := hbegins.fits
      rw [decide_eq_false_iff_not, havailable] at hdone
      omega
    have hall : keep tb.tbSize new rest = rest := by
      cases rest with
      | nil =>
          rfl
      | cons e rest =>
          rw [keep, if_pos hroom]
    rw [hall] at hkeep
    rw [hkeep]
    exact ⟨s, hs, hbegins, hroom⟩
  · rintro ⟨start, available⟩ ⟨rest, hbegins, havailable, hkeep⟩ hcond
    have hless : available < new := of_decide_eq_true hcond
    have hfits := hbegins.fits
    cases rest with
    | nil =>
        simp only [total, Nat.sub_zero] at havailable
        omega
    | cons e rest =>
        have hpos := size_pos e
        have hkept : keep tb.tbSize new (e :: rest) = keep tb.tbSize new rest := by
          rw [keep, if_neg]
          intro hroom
          simp only at havailable
          omega
        simp only at havailable
        rw [total] at hfits havailable
        refine ⟨_, rfl, ?_⟩
        rw [dropFirst_eq hbegins (by omega)]
        refine ⟨⟨rest, hbegins.next, ?_, hkeep.trans hkept⟩, ?_⟩
        · simp only
          omega
        · simp only
          omega

/-- An entry of this size fits the ring, and does not fill it together with what is kept. -/
def Fits (size : Nat) (held : List TraceEntry) (new : Nat) : Prop :=
  new ≤ size ∧ total (keep size new held) + new ≠ size

instance (size : Nat) (held : List TraceEntry) (new : Nat) : Decidable (Fits size held new) :=
  inferInstanceAs (Decidable (_ ∧ _))

/-- An add keeps the newest entries, and the ring holds them and the new one. -/
theorem traceAddRaw_spec
    {held : List TraceEntry}
    (h : RingInv tb held)
    (hid : e.id ≠ 0)
    (hfits : Fits tb.tbSize held e.size) :
    ∃ tb', traceAddRaw tb e.id e.level e.data = some (.added, tb') ∧ tb'.tbSize = tb.tbSize ∧
      RingInv tb' (keep tb.tbSize e.size held ++ [e]) := by
  obtain ⟨hnew, hnot⟩ := hfits
  have hpos := size_pos e
  have hsmall := h.small
  have hbegins := h.begins (by omega)
  obtain ⟨s, hs, hkept, hroom⟩ := evict_spec hbegins hnew
  have hendlt : tb.tbEnd < tb.tbSize := by
    rw [hbegins.tbEnd]
    exact Nat.mod_lt _ (by omega)
  have hadd : traceAddRaw tb e.id e.level e.data =
      some (.added,
        { tb with
          tbStart := s.start
          tbFilled := false
          tbBuf := writeSplit tb.tbSize tb.tbBuf tb.tbEnd e.bytes
          tbEnd := (tb.tbEnd + e.size) % tb.tbSize }) := by
    have hsum : add32 e.data.length hdrSize = e.size :=
      add32_of_lt (by rw [TraceEntry.size] at hnew; omega)
    rw [traceAddRaw]
    simp only
    rw [hsum, hbegins.available h.notFilled, if_neg (by omega), hs, Option.map_some,
      add32_of_lt (by omega), h.notFilled, Bool.false_and]
    rfl
  have htotal : total (keep tb.tbSize e.size held ++ [e]) =
      total (keep tb.tbSize e.size held) + e.size := by
    rw [total_append]
    rfl
  have hmax : max 1 tb.tbSize = tb.tbSize := Nat.max_eq_right (by omega)
  refine ⟨_, hadd, rfl, ?_⟩
  constructor
  · rfl
  · exact hsmall
  · rw [hmax]
    exact hkept.inside
  · dsimp only
    rw [hmax, htotal]
    omega
  · dsimp only
    rw [htotal, hkept.tbEnd, Nat.mod_add_mod, Nat.add_assoc]
  · dsimp only
    have hlen := length_bytes e
    have hold := writeSplit_other tb.tbBuf e.bytes hendlt hkept.tbEnd.symm
      (by rw [hlen]; exact hroom)
    have hwritten := writeSplit_slice tb.tbBuf e.bytes hendlt (by rw [hlen]; exact hnew)
    rw [htotal, ← slice_append, hold, hkept.contents, List.flatMap_append, ← slice_mod,
      ← hkept.tbEnd, ← hlen, hwritten, List.flatMap_singleton]
  · intro x hx
    rcases List.mem_append.1 hx with hx | hx
    · exact h.ids x ((keep_suffix _ _ _).subset hx)
    · rw [List.mem_singleton.1 hx]
      exact hid

/-- The first entry is printed, and the walk moves on to the next one. -/
theorem Begins.dump
    (h : Begins tb pos (e :: rest)) :
    traceEntryDump tb.tbBuf tb.tbSize pos = (e.printed, (pos + e.size) % tb.tbSize) := by
  have hpos := h.inside
  have hfits := h.fits
  have hsmall := h.small
  have hsize : e.size = hdrSize + e.data.length := Nat.add_comm _ _
  rw [total] at hfits
  have hcopy : (BitVec.ofNat 32 e.size - BitVec.ofNat 32 hdrSize : U32).toNat =
      e.data.length := by
    rw [BitVec.toNat_sub, size_toNat h, BitVec.toNat_ofNat, hsize]
    omega
  have hraw : (pos + hdrSize) % tb.tbSize < tb.tbSize := Nat.mod_lt _ (by omega)
  have hdata : readSplit tb.tbSize tb.tbBuf ((pos + hdrSize) % tb.tbSize) e.data.length =
      e.data := by
    rw [readSplit_eq hraw (by omega), slice_mod]
    exact h.parts.2
  have hnext : (pos + e.size) % tb.tbSize =
      ((pos + hdrSize) % tb.tbSize + e.data.length) % tb.tbSize := by
    rw [Nat.mod_add_mod, hsize, Nat.add_assoc]
  simp only [traceEntryDump, h.peek, hcopy]
  have hhdr : hdrSize = 12 := rfl
  rw [add32_of_lt (a := pos) (by omega)]
  generalize (pos + hdrSize) % tb.tbSize = raw at hraw hdata hnext ⊢
  rw [add32_of_lt (a := raw) (by omega)]
  rw [readSplit] at hdata
  split
  · rename_i hwraps
    rw [if_pos (by omega)] at hdata
    rw [hdata, hnext, Nat.mod_eq_sub_mod (by omega), Nat.mod_eq_of_lt (by omega)]
    refine Prod.ext rfl ?_
    dsimp only
    omega
  · rename_i hin
    rw [if_neg (by omega)] at hdata
    rw [hdata, size_toNat h, add32_of_lt (by omega)]
    rfl

theorem walkStep_eq
    (h : Begins tb pos (e :: rest)) (printed : List Printed) :
    walkStep tb { pos := pos, printed := printed } =
      { pos := (pos + e.size) % tb.tbSize, printed := printed ++ [e.printed] } := by
  simp only [walkStep, h.dump]

/-- The walk is at the end only when no entry is left. -/
theorem Begins.ne_end
    (h : Begins tb pos (e :: rest)) :
    pos ≠ tb.tbEnd := by
  have hpos := h.inside
  have hfits := h.fits
  have hsize := size_pos e
  rw [total] at hfits
  rw [h.tbEnd, total]
  intro heq
  by_cases hin : pos + (e.size + total rest) < tb.tbSize
  · rw [Nat.mod_eq_of_lt hin] at heq
    omega
  · rw [Nat.mod_eq_sub_mod (by omega), Nat.mod_eq_of_lt (by omega)] at heq
    omega

theorem Begins.at_end
    (h : Begins tb pos []) :
    pos = tb.tbEnd := by
  rw [h.tbEnd, total, Nat.add_zero, Nat.mod_eq_of_lt h.inside]

/-- The walk prints what is left and ends, by induction on the entries that are left. -/
theorem walk_spec
    {es : List TraceEntry} (printed : List Printed) (fuel : Nat)
    (h : Begins tb pos es)
    (hfuel : es.length < fuel) :
    ∃ s, whileLoop (fun s : Walk => s.pos ≠ tb.tbEnd) (fun s => some (walkStep tb s)) fuel
        { pos := pos, printed := printed } = some s ∧
      s.printed = printed ++ es.map TraceEntry.printed := by
  induction es generalizing pos printed fuel with
  | nil =>
      obtain ⟨fuel, rfl⟩ := Nat.exists_eq_succ_of_ne_zero (Nat.ne_zero_of_lt hfuel)
      exact ⟨_, by rw [whileLoop, if_neg (by simp [h.at_end])], by simp⟩
  | cons e rest ih =>
      obtain ⟨fuel, rfl⟩ := Nat.exists_eq_succ_of_ne_zero (Nat.ne_zero_of_lt hfuel)
      obtain ⟨s, hs, hprinted⟩ :=
        ih (printed ++ [e.printed]) fuel h.next (Nat.lt_of_succ_lt_succ hfuel)
      refine ⟨s, ?_, by rw [hprinted, List.map_cons, List.append_assoc, List.singleton_append]⟩
      rw [whileLoop, if_pos (by simp [h.ne_end]), Option.bind_some, walkStep_eq h, hs]

/-- The dump prints the entries that the ring holds. -/
theorem traceDump_spec
    {held : List TraceEntry}
    (h : RingInv tb held) :
    traceDump tb = some (held.map TraceEntry.printed) := by
  cases held with
  | nil =>
      have hend : tb.tbStart = tb.tbEnd := by
        have hstart := h.start
        rw [h.tbEnd, total, Nat.add_zero]
        rcases Nat.eq_zero_or_pos tb.tbSize with hzero | hpos
        · rw [hzero, Nat.mod_zero]
        · rw [Nat.mod_eq_of_lt (by omega)]
      have hnone : startId tb = 0 := by
        rw [startId, h.notFilled, decide_eq_true hend]
        rfl
      rw [traceDump, if_pos hnone]
      rfl
  | cons e rest =>
      have hpos := size_pos e
      have hroom := h.room
      rw [total] at hroom
      have hbegins := h.begins (by omega)
      have hsome : startId tb = e.id := by
        rw [startId, decide_eq_false hbegins.ne_end, Bool.and_false, hbegins.peek]
        rfl
      have hlength := length_le_total rest
      obtain ⟨s, hs, hprinted⟩ :=
        walk_spec ([] ++ [e.printed]) (tb.tbSize + 1) hbegins.next (by omega)
      rw [traceDump, if_neg (by rw [hsome]; exact h.ids e List.mem_cons_self),
        walkStep_eq hbegins, hs, Option.map_some, hprinted]
      rfl

end Ring

section Runs

/-- A buffer, with the entries that were added to it and the ones it still holds. -/
structure Recorder where
  tb : TraceBuffer
  held : List TraceEntry
  added : List TraceEntry

/-- A buffer that was just enabled. -/
def enabled (size : Nat) : Recorder :=
  { tb := enabledBuffer size, held := [], added := [] }

/-- What a caller adds, and the counter of its core for identifiers. -/
structure NewEntry where
  traceId : U32
  level : TraceLevel
  data : List UInt8

/-- The entry as it is put into the ring. -/
def NewEntry.entry (i : NewEntry) : TraceEntry :=
  { id := traceGetUniqId i.traceId, level := i.level, data := i.data }

/-- Add an entry; the held ones are those that `trace_add_raw()` does not drop. -/
def addEntry (s : Recorder) (i : NewEntry) : Recorder :=
  match traceAddRaw s.tb (traceGetUniqId i.traceId) i.level i.data with
  | some (.added, tb) =>
      { tb := tb
        held := keep s.tb.tbSize i.entry.size s.held ++ [i.entry]
        added := s.added ++ [i.entry] }
  | some (.enospc, tb) => { s with tb := tb }
  | none => s

/-- The new entry fits, and leaves some room beside those that are kept. -/
def LeavesRoom (s : Recorder) (i : NewEntry) : Prop :=
  Fits s.tb.tbSize s.held i.entry.size

instance (s : Recorder) (i : NewEntry) : Decidable (LeavesRoom s i) :=
  inferInstanceAs (Decidable (Fits _ _ _))

/-- The ring holds the newest of the entries. -/
structure Recorded (s : Recorder) : Prop where
  ring : RingInv s.tb s.held
  newest : s.held <:+ s.added
  last : s.added ≠ [] → s.held ≠ []

theorem traceGetUniqId_ne_zero
    (traceId : U32) :
    traceGetUniqId traceId ≠ 0 := by
  unfold traceGetUniqId
  split
  · rename_i hzero
    intro htwo
    have hone : traceId + 2 = traceId + 1 + 1 := by rw [BitVec.add_assoc]; rfl
    rw [hone, hzero] at htwo
    cases htwo
  · assumption

theorem recorded_step
    {s : Recorder} {i : NewEntry}
    (h : Recorded s)
    (hroom : LeavesRoom s i) :
    Recorded (addEntry s i) ∧ (addEntry s i).added = s.added ++ [i.entry] := by
  obtain ⟨tb', hadd, hsize, hring⟩ :=
    traceAddRaw_spec (e := i.entry) h.ring (traceGetUniqId_ne_zero _) hroom
  have hstep : addEntry s i =
      { tb := tb'
        held := keep s.tb.tbSize i.entry.size s.held ++ [i.entry]
        added := s.added ++ [i.entry] } := by
    have hadd' : traceAddRaw s.tb (traceGetUniqId i.traceId) i.level i.data =
        some (.added, tb') := hadd
    rw [addEntry, hadd']
  rw [hstep]
  refine ⟨?_, rfl⟩
  constructor
  · exact hring
  · obtain ⟨older, holder⟩ := (keep_suffix s.tb.tbSize i.entry.size s.held).trans h.newest
    exact ⟨older, by rw [← holder, List.append_assoc]⟩
  · intro _
    exact List.concat_ne_nil _ _

theorem recorded_run
    {s : Recorder} {is : List NewEntry}
    (h : Recorded s)
    (hrun : Guarded addEntry LeavesRoom s is) :
    Recorded (run addEntry s is) ∧
      (run addEntry s is).added = s.added ++ is.map NewEntry.entry := by
  induction is generalizing s with
  | nil =>
      exact ⟨h, (List.append_nil _).symm⟩
  | cons i is ih =>
      obtain ⟨hstep, hadded⟩ := recorded_step h hrun.1
      obtain ⟨hlast, hall⟩ := ih hstep hrun.2
      refine ⟨hlast, hall.trans ?_⟩
      rw [hadded, List.append_assoc, List.map_cons, List.singleton_append]

theorem recorded_enabled
    {size : Nat}
    (h : size ≤ 2 ^ 31) :
    Recorded (enabled size) := by
  constructor
  · exact ringInv_enabled h
  · exact List.suffix_refl _
  · exact fun hnone => absurd rfl hnone

/--
After any adds none of which fills the ring exactly, the dump prints a suffix of the entries
added, the last one among them.
-/
theorem traceRing_ok
    (size : Nat) (is : List NewEntry)
    (hsmall : size ≤ 2 ^ 31)
    (hrun : Guarded addEntry LeavesRoom (enabled size) is) :
    ∃ held : List TraceEntry,
      traceDump (run addEntry (enabled size) is).tb = some (held.map TraceEntry.printed) ∧
        held <:+ is.map NewEntry.entry ∧ (is ≠ [] → held ≠ []) := by
  obtain ⟨hrecorded, hadded⟩ := recorded_run (recorded_enabled hsmall) hrun
  have hall : (run addEntry (enabled size) is).added = is.map NewEntry.entry := hadded
  refine ⟨_, traceDump_spec hrecorded.ring, hall ▸ hrecorded.newest, fun hsome => ?_⟩
  refine hrecorded.last ?_
  rw [hall]
  exact fun hnone => hsome (List.map_eq_nil_iff.1 hnone)

/-- Three entries of 15 bytes in a ring of 40: the third one wraps and drops the first. -/
theorem traceRing_ok_wraps :
    ∃ held : List TraceEntry,
      traceDump (run addEntry (enabled 40)
          [⟨0, .info, [1, 2, 3]⟩, ⟨1, .log, [4, 5, 6]⟩, ⟨2, .crit, [7, 8, 9]⟩]).tb =
        some (held.map TraceEntry.printed) ∧
      held <:+ [⟨1, .info, [1, 2, 3]⟩, ⟨2, .log, [4, 5, 6]⟩, ⟨3, .crit, [7, 8, 9]⟩] ∧
        held ≠ [] := by
  obtain ⟨held, hdump, hsuffix, hlast⟩ :=
    traceRing_ok 40 [⟨0, .info, [1, 2, 3]⟩, ⟨1, .log, [4, 5, 6]⟩, ⟨2, .crit, [7, 8, 9]⟩]
      (by decide) (by decide +kernel)
  exact ⟨held, hdump, hsuffix, hlast (List.cons_ne_nil _ _)⟩

/-- An entry that fills the ring exactly is lost: the dump takes the full ring for empty. -/
theorem exactFill_dumpsNothing :
    ¬ ∀ (size : Nat) (is : List NewEntry),
      (∀ i ∈ is, i.entry.size ≤ size) →
        ∃ held : List TraceEntry,
          traceDump (run addEntry (enabled size) is).tb =
              some (held.map TraceEntry.printed) ∧
            held <:+ is.map NewEntry.entry ∧ (is ≠ [] → held ≠ []) := by
  intro hclaim
  obtain ⟨held, hdump, -, hlast⟩ :=
    hclaim 15 [⟨0, .info, [1, 2, 3]⟩] (by simp [NewEntry.entry, TraceEntry.size, hdrSize])
  have hnothing :
      traceDump (run addEntry (enabled 15) [⟨0, .info, [1, 2, 3]⟩]).tb = some [] := by
    decide +kernel
  rw [hnothing] at hdump
  exact hlast (List.cons_ne_nil _ _) (List.map_eq_nil_iff.1 (Option.some.inj hdump).symm)

end Runs

end TraceRing
end Warp17
