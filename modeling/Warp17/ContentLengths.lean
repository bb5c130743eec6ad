import Warp17.HttpParser

/-!
# Content-Length lines

The length that `http_parse_content_length` takes from a line (src/src/appl/tpg_test_http_1_1_app.c)
against the number that the line has.  The digits are added up in 32 bits, an empty run of digits
is 0, and 2^32 - 1 is the mark of a session without a length.

**Results**
- `decimal_eq`: the digits modulo 2^32.
- `hdrField_contentLengthLine`: what is recorded of a line.
- `recordsNumber_iff`: the lines whose length is recorded as it should be.
-/

namespace Warp17
namespace ContentLengths

open MbufChains HttpParser

/-- A line with the name of the field, anything after it, and the line end. -/
def contentLengthLine (v : List UInt8) : List UInt8 :=
  httpContentLenStr ++ v ++ [cr, lf]

/-- The decimal value of a run of digits. -/
def numberValue (ds : List UInt8) : Nat :=
  ds.foldl (fun n c => n * 10 + (c.toNat - 48)) 0

/-- The text is a decimal number below the reserved one. -/
def IsLength (ds : List UInt8) : Prop :=
  ds ≠ [] ∧ ds.all isdigit = true ∧ numberValue ds < httpContentLengthInvalid

instance (ds : List UInt8) : Decidable (IsLength ds) :=
  inferInstanceAs (Decidable (_ ∧ _ ∧ _))

/-- The recorded length after a line, when all goes well. -/
def lengthOf (v : List UInt8) (before : Nat) : Nat :=
  if IsLength (v.dropWhile isblank) then numberValue (v.dropWhile isblank) else before

/-- However the line lies in its chain, its number is recorded if it has one, and otherwise the
recorded length stays. -/
def RecordsNumber (v : List UInt8) : Prop :=
  ∀ (app : HttpApp) (stats : HttpStats) (data : Chain) (bytes : List UInt8) (offset : Nat)
    (r : List UInt8), Lays data bytes → bytes.drop offset = contentLengthLine v ++ r →
    (httpParseHdrLine app stats data offset (contentLengthLine v).length).1.haContentLength =
      lengthOf v app.haContentLength

section Numbers

variable {v ds : List UInt8}

theorem foldl_addDigit
    (ds : List UInt8) (n : Nat) :
    ds.foldl addDigit (n % 2 ^ 32) =
      ds.foldl (fun n c => n * 10 + (c.toNat - 48)) n % 2 ^ 32 := by
  induction ds generalizing n with
  | nil =>
      rfl
  | cons c ds ih =>
      have hstep : addDigit (n % 2 ^ 32) c = (n * 10 + (c.toNat - 48)) % 2 ^ 32 := by
        rw [addDigit]
        omega
      rw [List.foldl_cons, List.foldl_cons, hstep, ih]

/-- The digits are added up modulo 2^32. -/
theorem decimal_eq
    (l : List UInt8) :
    decimal l = numberValue (l.takeWhile isdigit) % 2 ^ 32 := by
  rw [decimal, numberValue, ← foldl_addDigit]
  rfl

theorem dropWhile_crlf
    {p : UInt8 → Bool}
    (hcr : p cr = false)
    (l : List UInt8) :
    (l ++ [cr, lf]).dropWhile p = l.dropWhile p ++ [cr, lf] := by
  induction l with
  | nil =>
      rw [List.nil_append, List.dropWhile_cons_of_neg (by simp [hcr])]
      rfl
  | cons c l ih =>
      rw [List.cons_append]
      by_cases hc : p c = true
      · rw [List.dropWhile_cons_of_pos hc, List.dropWhile_cons_of_pos hc, ih]
      · rw [List.dropWhile_cons_of_neg hc, List.dropWhile_cons_of_neg hc, List.cons_append]

theorem takeWhile_crlf
    {p : UInt8 → Bool}
    (hcr : p cr = false)
    (l : List UInt8) :
    (l ++ [cr, lf]).takeWhile p = l.takeWhile p := by
  induction l with
  | nil =>
      rw [List.nil_append, List.takeWhile_cons_of_neg (by simp [hcr]), List.takeWhile_nil]
  | cons c l ih =>
      rw [List.cons_append]
      by_cases hc : p c = true
      · rw [List.takeWhile_cons_of_pos hc, List.takeWhile_cons_of_pos hc, ih]
      · rw [List.takeWhile_cons_of_neg hc, List.takeWhile_cons_of_neg hc]

theorem fieldValue_contentLengthLine
    (v : List UInt8) :
    fieldValue httpContentLenStr (contentLengthLine v) = v.dropWhile isblank ++ [cr, lf] := by
  rw [fieldValue, contentLengthLine, List.append_assoc, List.drop_left,
    dropWhile_crlf (by decide)]

theorem dropWhile_isdigit_eq_nil
    (ds : List UInt8) :
    ds.dropWhile isdigit = [] ↔ ds.all isdigit = true := by
  rw [List.dropWhile_eq_nil_iff, List.all_eq_true]

/-- A run of nothing but digits is recorded, whatever it is worth. -/
theorem hdrField_contentLengthLine
    (v : List UInt8) :
    hdrField (contentLengthLine v) =
      .contentLength (if (v.dropWhile isblank).all isdigit = true then
        some (numberValue (v.dropWhile isblank) % 2 ^ 32) else none) := by
  have hname : httpContentLenStr <+: contentLengthLine v := by
    rw [contentLengthLine, List.append_assoc]
    exact List.prefix_append _ _
  have hrest : (fieldValue httpContentLenStr (contentLengthLine v)).dropWhile isdigit =
      (v.dropWhile isblank).dropWhile isdigit ++ [cr, lf] := by
    rw [fieldValue_contentLengthLine, dropWhile_crlf (by decide)]
  have hlength : ((v.dropWhile isblank).dropWhile isdigit ++ [cr, lf]).length = 2 ↔
      (v.dropWhile isblank).all isdigit = true := by
    rw [← dropWhile_isdigit_eq_nil, ← List.length_eq_zero_iff, List.length_append,
      List.length_cons, List.length_cons, List.length_nil]
    omega
  rw [hdrField_of_length hname (by rw [hrest]; simp), hrest]
  by_cases hall : (v.dropWhile isblank).all isdigit = true
  · have hself : (v.dropWhile isblank).takeWhile isdigit = v.dropWhile isblank :=
      List.takeWhile_eq_self_iff.2 (List.all_eq_true.1 hall)
    rw [if_pos (hlength.2 hall), if_pos hall, fieldValue_contentLengthLine, decimal_eq,
      takeWhile_crlf (by decide), hself]
  · rw [if_neg (mt hlength.1 hall), if_neg hall]

end Numbers

section Lines

variable {v : List UInt8}

/-- What is recorded, as a function of the line. -/
theorem haContentLength_contentLengthLine
    (app : HttpApp) (stats : HttpStats)
    {data : Chain} {bytes r : List UInt8} {offset : Nat}
    (hdata : Lays data bytes)
    (hline : bytes.drop offset = contentLengthLine v ++ r) :
    (httpParseHdrLine app stats data offset (contentLengthLine v).length).1.haContentLength =
      if (v.dropWhile isblank).all isdigit = true then
        numberValue (v.dropWhile isblank) % 2 ^ 32
      else app.haContentLength := by
  rw [httpParseHdrLine_eq app stats hdata hline, hdrField_contentLengthLine,
    if_neg HdrField.noConfusion]
  split <;> rfl

/-- A session with a given length, before the header of a response is parsed. -/
def parsing (contentLength : Nat) : HttpApp :=
  ⟨.recv 0, contentLength, 0, 0, .clParseRespHdr⟩

/-- The line alone in one mbuf. -/
def oneMbuf (bytes : List UInt8) : Chain :=
  [⟨0, bytes, BitVec.ofNat 32 bytes.length, 1⟩]

theorem lays_oneMbuf
    {bytes : List UInt8}
    (hlt : bytes.length < 2 ^ 32) :
    Lays (oneMbuf bytes) bytes := by
  refine ⟨List.append_nil _, ?_⟩
  rw [oneMbuf, chainPktLen, BitVec.toNat_ofNat, Nat.mod_eq_of_lt hlt]

/-- A wrong number would be recorded in a session with a different length. -/
theorem isLength_of_recordsNumber
    (hlt : (contentLengthLine v).length < 2 ^ 32)
    (hrecords : RecordsNumber v)
    (hall : (v.dropWhile isblank).all isdigit = true) :
    IsLength (v.dropWhile isblank) := by
  by_contra hno
  have hdata := lays_oneMbuf hlt
  have hline : (contentLengthLine v).drop 0 = contentLengthLine v ++ [] := by
    rw [List.drop_zero, List.append_nil]
  have hgot := hrecords (parsing ((numberValue (v.dropWhile isblank) + 1) % 2 ^ 32))
    ⟨0, 0, 0, 0, 0⟩ _ _ 0 [] hdata hline
  rw [haContentLength_contentLengthLine _ _ hdata hline, if_pos hall, lengthOf, if_neg hno] at hgot
  simp only [parsing] at hgot
  omega

/-- The length of a line is recorded as it should be if and only if the line has no run of digits
that is empty or too large. -/
theorem recordsNumber_iff
    (v : List UInt8)
    (hlt : (contentLengthLine v).length < 2 ^ 32) :
    RecordsNumber v ↔
      ((v.dropWhile isblank).all isdigit = true →
        v.dropWhile isblank ≠ [] ∧
          numberValue (v.dropWhile isblank) < httpContentLengthInvalid) := by
  constructor
  · intro hrecords hall
    obtain ⟨hne, -, hsmall⟩ := isLength_of_recordsNumber hlt hrecords hall
    exact ⟨hne, hsmall⟩
  · intro hgood app stats data bytes offset r hdata hline
    rw [haContentLength_contentLengthLine app stats hdata hline, lengthOf]
    by_cases hall : (v.dropWhile isblank).all isdigit = true
    · obtain ⟨hne, hsmall⟩ := hgood hall
      rw [if_pos hall, if_pos ⟨hne, hall, hsmall⟩]
      exact Nat.mod_eq_of_lt (hsmall.trans (by decide))
    · rw [if_neg hall, if_neg (fun hlength => hall hlength.2.1)]

/-- `" 42"` -/
theorem recordsNumber_iff_42 :
    (contentLengthLine [32, 52, 50]).length < 2 ^ 32 ∧ RecordsNumber [32, 52, 50] :=
  ⟨by decide, (recordsNumber_iff [32, 52, 50] (by decide)).2 (by decide)⟩

/-- Nothing after the name gives the length 0, and `4294967297` gives 1. -/
theorem wrong_lengths_recorded :
    ¬ RecordsNumber [] ∧ ¬ RecordsNumber [52, 50, 57, 52, 57, 54, 55, 50, 57, 55] := by
  refine ⟨fun hrecords => ?_, fun hrecords => ?_⟩
  · exact (isLength_of_recordsNumber (by decide) hrecords (by decide)).1 rfl
  · exact absurd (isLength_of_recordsNumber (by decide) hrecords (by decide)).2.2 (by decide)

end Lines

end ContentLengths
end Warp17
