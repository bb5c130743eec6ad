import Warp17.ContentLengths
import Warp17.MessageBuilding

/-!
# Reading what was built

The messages of `http_build_req_pkt` and `http_build_resp_pkt` against the parser of the other end
(src/src/appl/tpg_test_http_1_1_app.c).  The texts of a configuration are written as they are, and
`http_validate_fields` only looks for a content length in them: an empty line in the fields ends
the header in front of the length, and a transfer encoding is refused.

**Results**
- `headerThen_line`: the first line of a header, whatever follows it.
- `headerThen_text`: the lines of a text in front of the rest of a header.
- `numberValue_digitsOf`: the digits that `%u` prints are read as the number.
- `builtMessage_iff`: the configurations whose message is one message to the other end.
-/

namespace Warp17
namespace MessageParsing

open DelimiterScan HttpParser HttpDelivery ContentLengths MessageBuilding
open TestCaseConfig (httpClientValidateCfg httpServerValidateCfg httpValidateFields strcasestr)
open SendRates (httpFields httpHostName httpObjectName)

/-! ## Lines -/

section Lines

/-- The lines of a text, without their ends; what follows the last line end is a line. -/
def linesOf : List UInt8 → List (List UInt8)
  | [] => [[]]
  | [c] => [[c]]
  | c :: d :: l =>
      if c = cr ∧ d = lf then [] :: linesOf l
      else
        match linesOf (d :: l) with
        | [] => [[c]]
        | line :: lines => (c :: line) :: lines

/-- A line that the parser takes and passes over, unless it holds the content length. -/
def FieldLine (line : List UInt8) : Prop :=
  line ≠ [] ∧ ¬ httpTransferEncStr <+: line

instance (line : List UInt8) : Decidable (FieldLine line) :=
  inferInstanceAs (Decidable (line ≠ [] ∧ ¬ httpTransferEncStr <+: line))

variable {f l m t rest : List UInt8} {a b c : UInt8}

theorem undelimited_cons
    (hnot : ∀ d ∈ l.head?, ¬ (c = a ∧ d = b))
    (hl : Undelimited a b l) :
    Undelimited a b (c :: l) := by
  intro hin
  rcases List.infix_cons_iff.1 hin with hpre | hin
  · obtain ⟨hc, hb⟩ := List.cons_prefix_cons.1 hpre
    obtain ⟨s, rfl⟩ := hb
    exact hnot b rfl ⟨hc.symm, rfl⟩
  · exact hl hin

/-- The delimiter is not made where the second part neither begins nor holds its end. -/
theorem undelimited_append
    (hl : Undelimited a b l)
    (hm : b ∉ m) :
    Undelimited a b (l ++ m) := by
  induction l with
  | nil =>
      intro hin
      exact hm (hin.subset (by simp))
  | cons c l ih =>
      refine undelimited_cons (fun d hd => ?_) (ih hl.tail)
      rintro ⟨rfl, rfl⟩
      cases l with
      | nil =>
          exact hm (List.mem_of_mem_head? hd)
      | cons e l =>
          obtain rfl := Option.some.inj hd
          exact hl.head ⟨rfl, rfl⟩

theorem undelimited_of_not_mem
    (hm : b ∉ m) :
    Undelimited a b m :=
  undelimited_append undelimited_nil hm

/-- Nor where the first part does not hold its beginning. -/
theorem append_undelimited
    (hl : a ∉ l)
    (hm : Undelimited a b m) :
    Undelimited a b (l ++ m) := by
  induction l with
  | nil =>
      exact hm
  | cons c l ih =>
      rw [List.mem_cons, not_or] at hl
      exact (ih hl.2).cons (Ne.symm hl.1)

/-- A text is one line, or it is its first line and the lines that follow. -/
theorem linesOf_cases
    (f : List UInt8) :
    (Undelimited cr lf f ∧ linesOf f = [f]) ∨
      ∃ t r, f = t ++ cr :: lf :: r ∧ Undelimited cr lf (t ++ [cr]) ∧
        linesOf f = t :: linesOf r := by
  fun_induction linesOf f with
  | case1 =>
      exact Or.inl ⟨undelimited_nil, rfl⟩
  | case2 c =>
      exact Or.inl ⟨undelimited_cons (by simp) undelimited_nil, rfl⟩
  | case3 c d l hend ih =>
      obtain ⟨rfl, rfl⟩ := hend
      exact Or.inr ⟨[], l, rfl, undelimited_cons (by simp) undelimited_nil, rfl⟩
  | case4 c d l hnot hnil ih =>
      rcases ih with ⟨-, hone⟩ | ⟨t, r, -, -, hcons⟩
      · rw [hnil] at hone
        cases hone
      · rw [hnil] at hcons
        cases hcons
  | case5 c d l hnot line lines hlines ih =>
      rcases ih with ⟨hone, heq⟩ | ⟨t, r, hsplit, ht, heq⟩
      · rw [hlines] at heq
        obtain ⟨rfl, rfl⟩ := List.cons.inj heq
        refine Or.inl ⟨undelimited_cons (fun e he => ?_) hone, rfl⟩
        obtain rfl := Option.some.inj he
        exact hnot
      · rw [hlines] at heq
        obtain ⟨rfl, rfl⟩ := List.cons.inj heq
        refine Or.inr ⟨c :: line, r, by rw [hsplit]; rfl, undelimited_cons (fun e he => ?_) ht, rfl⟩
        -- the second character is that of the text
        rintro ⟨rfl, rfl⟩
        cases line with
        | nil =>
            exact absurd (Option.some.inj he) (by decide)
        | cons e line =>
            obtain rfl := Option.some.inj he
            exact hnot ⟨rfl, (List.cons.inj hsplit).1⟩

/-- Of two lines at the beginning of the same bytes, neither is longer. -/
theorem line_unique
    {l₁ l₂ r₁ r₂ : List UInt8}
    (h₁ : IsLine l₁)
    (h₂ : IsLine l₂)
    (heq : l₁ ++ r₁ = l₂ ++ r₂) :
    l₁ = l₂ := by
  have hshort : ∀ {l l' m : List UInt8}, IsLine l → IsLine l' → l' = l ++ m → l = l' := by
    intro l l' m hl hl' hm
    by_contra hne
    have hmore : m ≠ [] := by
      rintro rfl
      exact hne (by rw [hm, List.append_nil])
    obtain ⟨t, rfl, -⟩ := hl
    exact delimited_append t [] (hl'.undelimited_prefix hm hmore)
  rcases List.append_eq_append_iff.1 heq with ⟨m, hm, -⟩ | ⟨m, hm, -⟩
  · exact hshort h₁ h₂ hm
  · exact (hshort h₂ h₁ hm).symm

theorem linesOf_line
    (ht : Undelimited cr lf (t ++ [cr])) :
    linesOf (t ++ cr :: lf :: rest) = t :: linesOf rest := by
  rcases linesOf_cases (t ++ cr :: lf :: rest) with ⟨hone, -⟩ | ⟨t', r, hsplit, ht', heq⟩
  · exact absurd hone (delimited_append t rest)
  · have hsame : t ++ [cr, lf] = t' ++ [cr, lf] :=
      @line_unique _ _ rest r ⟨t, rfl, ht⟩ ⟨t', rfl, ht'⟩ (by simpa using hsplit)
    obtain rfl := List.append_cancel_right hsame
    rw [heq, (List.cons.inj (List.cons.inj (List.append_cancel_left hsplit)).2).2]

/-- Every line of a text is a part of it. -/
theorem infix_of_mem_linesOf
    (hl : l ∈ linesOf f) :
    l <:+: f := by
  obtain ⟨lines, hlines⟩ : ∃ lines, linesOf f = lines := ⟨_, rfl⟩
  rw [hlines] at hl
  induction lines generalizing f with
  | nil =>
      cases hl
  | cons line lines ih =>
      rcases linesOf_cases f with ⟨-, hone⟩ | ⟨t, r, rfl, -, heq⟩
      · rw [hlines] at hone
        obtain ⟨rfl, rfl⟩ := List.cons.inj hone
        rw [List.mem_singleton.1 hl]
      · rw [hlines] at heq
        obtain ⟨rfl, rfl⟩ := List.cons.inj heq
        rcases List.mem_cons.1 hl with rfl | hl
        · exact (List.prefix_append l _).isInfix
        · exact (ih hl rfl).trans ⟨line ++ [cr, lf], [], by simp⟩

end Lines

/-! ## Headers -/

section Headers

/-- The bytes begin with a header that is accepted, and `body` is what follows it. -/
def HeaderThen (before : Nat) (bytes : List UInt8) (after : Nat) (body : List UInt8) : Prop :=
  ∃ h, bytes = h ++ body ∧ HeaderOf before h after

variable {before after : Nat} {f t v rest body bytes : List UInt8} {role : HttpRole}

theorem httpMessage_iff :
    HttpMessage role bytes ↔
      ∃ contentLength body, HeaderThen httpContentLengthInvalid bytes contentLength body ∧
        BodyOf role contentLength body := by
  constructor
  · rintro ⟨header, body, contentLength, hsplit, hheader, hbody⟩
    exact ⟨contentLength, body, ⟨header, hsplit, hheader⟩, hbody⟩
  · rintro ⟨contentLength, body, ⟨header, hsplit, hheader⟩, hbody⟩
    exact ⟨header, body, contentLength, hsplit, hheader, hbody⟩

/-- The first line: it ends the header if it is empty, and is a field otherwise. -/
theorem headerThen_line
    (ht : Undelimited cr lf (t ++ [cr])) :
    HeaderThen before (t ++ cr :: lf :: rest) after body ↔
      (t = [] ∧ after = before ∧ body = rest) ∨
        (t ≠ [] ∧ hdrField (t ++ [cr, lf]) ≠ .transferEncoding ∧
          HeaderThen (lengthAfter before (hdrField (t ++ [cr, lf]))) rest after body) := by
  have hline : IsLine (t ++ [cr, lf]) := ⟨t, rfl, ht⟩
  constructor
  · rintro ⟨h, hsplit, hheader⟩
    have hsplit' : t ++ [cr, lf] ++ rest = h ++ body := by
      simpa using hsplit
    cases hheader with
    | done contentLength =>
        have hsame := line_unique hline isLine_crlf hsplit'
        rw [hsame] at hsplit'
        obtain rfl : t = [] := List.append_left_eq_self.1 hsame
        exact Or.inl ⟨rfl, rfl, (List.append_cancel_left hsplit').symm⟩
    | @line _ _ l h hl hlong henc hrest =>
        have hsplit'' : t ++ [cr, lf] ++ rest = l ++ (h ++ body) := by
          rw [hsplit', List.append_assoc]
        obtain rfl := line_unique hline hl hsplit''
        refine Or.inr ⟨?_, henc, h, List.append_cancel_left hsplit'', hrest⟩
        rintro rfl
        exact absurd hlong (by decide)
  · rintro (⟨rfl, rfl, rfl⟩ | ⟨hne, henc, h, rfl, hheader⟩)
    · exact ⟨[cr, lf], rfl, HeaderOf.done _⟩
    · have hpos := List.length_pos_iff.2 hne
      refine ⟨t ++ [cr, lf] ++ h, by simp, HeaderOf.line hline ?_ henc hheader⟩
      rw [List.length_append, List.length_cons, List.length_cons, List.length_nil]
      omega

theorem prefix_crlf_iff
    {val : List UInt8}
    (hval : cr ∉ val) :
    val <+: t ++ [cr, lf] ↔ val <+: t := by
  have hends : t ++ [cr, lf] = t ++ [cr] ++ [lf] := by
    simp
  rw [hends, List.prefix_concat_iff, List.prefix_concat_iff]
  constructor
  · rintro (rfl | rfl | hpre)
    · simp at hval
    · simp at hval
    · exact hpre
  · exact fun hpre => Or.inr (Or.inr hpre)

/-- What a line is, when it does not begin with the name of the content length. -/
theorem hdrField_line
    (hno : ¬ httpContentLenStr <+: t) :
    hdrField (t ++ [cr, lf]) =
      if httpTransferEncStr <+: t then .transferEncoding else .other := by
  have hlen := mt (@prefix_crlf_iff t httpContentLenStr (by decide)).1 hno
  have henc := @prefix_crlf_iff t httpTransferEncStr (by decide)
  rw [hdrField_of_not_length fun h => hlen h.1]
  by_cases hpre : httpTransferEncStr <+: t
  · obtain ⟨v, rfl⟩ := hpre
    have hvalue : fieldValue httpTransferEncStr (httpTransferEncStr ++ v ++ [cr, lf]) ≠ [] := by
      rw [fieldValue, List.append_assoc, List.drop_left, dropWhile_crlf (by decide)]
      simp
    rw [if_pos ⟨henc.2 (List.prefix_append _ _), hvalue⟩, if_pos (List.prefix_append _ _)]
  · rw [if_neg fun h => hpre (henc.1 h.1), if_neg hpre]

/-- A line without a content length is passed over, or the header ends or is refused with it. -/
theorem headerThen_plainLine
    (ht : Undelimited cr lf (t ++ [cr]))
    (hno : ¬ httpContentLenStr <+: t) :
    (FieldLine t ∧ (HeaderThen before (t ++ cr :: lf :: rest) after body ↔
      HeaderThen before rest after body)) ∨
    (¬ FieldLine t ∧ (HeaderThen before (t ++ cr :: lf :: rest) after body →
      after = before ∧ rest = body)) := by
  rw [headerThen_line ht, hdrField_line hno]
  by_cases hnil : t = []
  · right
    refine ⟨fun h => h.1 hnil, ?_⟩
    rintro (⟨-, rfl, rfl⟩ | ⟨hne, -⟩)
    · exact ⟨rfl, rfl⟩
    · exact absurd hnil hne
  · by_cases henc : httpTransferEncStr <+: t
    · right
      refine ⟨fun h => h.2 henc, ?_⟩
      rintro (⟨hzero, -⟩ | ⟨-, hnot, -⟩)
      · exact absurd hzero hnil
      · exact absurd (if_pos henc) hnot
    · left
      rw [if_neg henc]
      refine ⟨⟨hnil, henc⟩, ?_, fun h => Or.inr ⟨hnil, HdrField.noConfusion, h⟩⟩
      rintro (⟨hzero, -⟩ | ⟨-, -, h⟩)
      · exact absurd hzero hnil
      · exact h

/-- The lines of a text without content lengths: either they are all fields, or the header ends
or is refused among them.  By induction on the lines. -/
theorem headerThen_text
    (hno : ∀ line ∈ linesOf f, ¬ httpContentLenStr <+: line) :
    ((∀ line ∈ linesOf f, FieldLine line) ∧
      (HeaderThen before (f ++ cr :: lf :: rest) after body ↔
        HeaderThen before rest after body)) ∨
    ((¬ ∀ line ∈ linesOf f, FieldLine line) ∧
      (HeaderThen before (f ++ cr :: lf :: rest) after body →
        after = before ∧ rest <:+ body)) := by
  obtain ⟨lines, hlines⟩ : ∃ lines, linesOf f = lines := ⟨_, rfl⟩
  rw [hlines] at hno ⊢
  induction lines generalizing f with
  | nil =>
      rcases linesOf_cases f with ⟨-, heq⟩ | ⟨t, r, -, -, heq⟩
      all_goals
        rw [hlines] at heq
        cases heq
  | cons line lines ih =>
      have hline := hno line List.mem_cons_self
      rw [List.forall_mem_cons]
      rcases linesOf_cases f with ⟨hone, heq⟩ | ⟨t, r, rfl, ht, heq⟩
      · -- the last line
        rw [hlines] at heq
        obtain ⟨rfl, rfl⟩ := List.cons.inj heq
        have hend : Undelimited cr lf (line ++ [cr]) := undelimited_append hone (by decide)
        rcases @headerThen_plainLine before after line rest body hend hline with
          ⟨hfield, hiff⟩ | ⟨hnot, hends⟩
        · exact Or.inl ⟨⟨hfield, by simp⟩, hiff⟩
        · exact Or.inr ⟨fun h => hnot h.1, fun h => ⟨(hends h).1, by rw [(hends h).2]⟩⟩
      · rw [hlines] at heq
        obtain ⟨rfl, rfl⟩ := List.cons.inj heq
        have hassoc : line ++ cr :: lf :: r ++ cr :: lf :: rest =
            line ++ cr :: lf :: (r ++ cr :: lf :: rest) := by
          simp
        rw [hassoc]
        rcases @headerThen_plainLine before after line (r ++ cr :: lf :: rest) body ht hline with
          ⟨hfield, hiff⟩ | ⟨hnot, hends⟩
        · rcases ih (fun l hl => hno l (List.mem_cons_of_mem _ hl)) rfl with
            ⟨hall, hrest⟩ | ⟨hnot, hends⟩
          · exact Or.inl ⟨⟨hfield, hall⟩, hiff.trans hrest⟩
          · exact Or.inr ⟨fun h => hnot h.2, fun h => hends (hiff.1 h)⟩
        · refine Or.inr ⟨fun h => hnot h.1, fun h => ⟨(hends h).1, ?_⟩⟩
          rw [← (hends h).2]
          exact ⟨r ++ [cr, lf], by simp⟩

end Headers

/-! ## Numbers -/

section Numbers

/-- The digits that `%u` prints. -/
def digitsOf (n : Nat) : List UInt8 :=
  strBytes (Nat.toDigits 10 n)

theorem digitsOf_eq
    (n : Nat) :
    digitsOf n =
      if n < 10 then [UInt8.ofNat (48 + n)]
      else digitsOf (n / 10) ++ [UInt8.ofNat (48 + n % 10)] := by
  have hdigit : ∀ d < 10, UInt8.ofNat (Nat.digitChar d).toNat = UInt8.ofNat (48 + d) := by
    decide
  rw [digitsOf, Nat.toDigits_eq_if (by decide)]
  split
  next hlt =>
    rw [← hdigit n hlt]
    rfl
  next =>
    rw [strBytes_append, ← hdigit (n % 10) (Nat.mod_lt n (by decide))]
    rfl

theorem isdigit_digit
    {d : Nat}
    (hd : d < 10) :
    isdigit (UInt8.ofNat (48 + d)) = true ∧ (UInt8.ofNat (48 + d)).toNat - 48 = d := by
  have hall : ∀ d < 10, isdigit (UInt8.ofNat (48 + d)) = true ∧
      (UInt8.ofNat (48 + d)).toNat - 48 = d := by
    decide
  exact hall d hd

theorem all_isdigit_digitsOf
    (n : Nat) :
    (digitsOf n).all isdigit = true := by
  induction n using Nat.strong_induction_on with
  | h n ih =>
      rw [digitsOf_eq]
      split
      next hlt =>
        rw [List.all_cons, List.all_nil, Bool.and_true]
        exact (isdigit_digit hlt).1
      next hge =>
        rw [List.all_append, ih (n / 10) (by omega), List.all_cons, List.all_nil, Bool.and_true,
          Bool.true_and]
        exact (isdigit_digit (Nat.mod_lt n (by decide))).1

/-- The number is read back from its digits. -/
theorem numberValue_digitsOf
    (n : Nat) :
    numberValue (digitsOf n) = n := by
  induction n using Nat.strong_induction_on with
  | h n ih =>
      rw [digitsOf_eq]
      split
      next hlt =>
        simp only [numberValue, List.foldl_cons, List.foldl_nil, Nat.zero_mul, Nat.zero_add]
        exact (isdigit_digit hlt).2
      next hge =>
        have hrest := ih (n / 10) (by omega)
        rw [numberValue] at hrest
        rw [numberValue, List.foldl_append, hrest, List.foldl_cons, List.foldl_nil,
          (isdigit_digit (Nat.mod_lt n (by decide))).2]
        omega

theorem digitsOf_ne_nil
    (n : Nat) :
    digitsOf n ≠ [] := by
  rw [digitsOf_eq]
  split <;> simp

theorem isblank_of_isdigit
    {d : UInt8}
    (hd : isdigit d = true) :
    isblank d = false := by
  rw [isdigit, decide_eq_true_eq] at hd
  simp only [isblank, Bool.or_eq_false_iff, beq_eq_false_iff_ne, ne_eq, ← UInt8.toNat_inj]
  constructor
  · rw [show (32 : UInt8).toNat = 32 from rfl]
    omega
  · rw [show (9 : UInt8).toNat = 9 from rfl]
    omega

/-- The line of the content length, as it is written and as it is read. -/
theorem contentLength_line
    (n : Nat) :
    strBytes (SendRates.httpContentLength n) = contentLengthLine (32 :: digitsOf n) ∧
      hdrField (contentLengthLine (32 :: digitsOf n)) = .contentLength (some (n % 2 ^ 32)) ∧
      Undelimited cr lf (httpContentLenStr ++ 32 :: digitsOf n ++ [cr]) := by
  have hall := List.all_eq_true.1 (all_isdigit_digitsOf n)
  have hblank : (32 :: digitsOf n).dropWhile isblank = digitsOf n := by
    rw [List.dropWhile_cons_of_pos (by decide)]
    obtain ⟨d, ds, hcons⟩ := List.exists_cons_of_ne_nil (digitsOf_ne_nil n)
    rw [hcons] at hall ⊢
    have hd := isblank_of_isdigit (hall d List.mem_cons_self)
    rw [List.dropWhile_cons_of_neg (by rw [hd]; decide)]
  refine ⟨?_, ?_, undelimited_of_not_mem fun hmem => ?_⟩
  · rw [SendRates.httpContentLength, strBytes_append, strBytes_append, strBytes_append]
    rfl
  · rw [hdrField_contentLengthLine, hblank, if_pos (all_isdigit_digitsOf n), numberValue_digitsOf]
  · rw [List.mem_append, List.mem_append, List.mem_cons] at hmem
    rcases hmem with (hname | hspace | hdigit) | hend
    · exact absurd hname (by decide)
    · exact absurd hspace (by decide)
    · exact absurd (hall _ hdigit) (by decide)
    · exact absurd hend (by decide)

end Numbers

/-! ## Messages -/

section Messages

/-- The names of a configuration, which stand within a line. -/
def namesOf : HttpConfig → List (List Char)
  | .client app => [httpObjectName app.hcReqObjectName, httpHostName app.hcReqHostName]
  | .server _ => []

/-- The fields of a configuration, which may be any number of lines. -/
def fieldsOf : HttpConfig → Option TestCaseConfig.Text
  | .client app => app.hcReqFields
  | .server app => app.hsRespFields

def fieldsText (cfg : HttpConfig) : List Char :=
  httpFields (fieldsOf cfg)

/-- The `validate_cfg` callback. -/
def validateCfg : HttpConfig → Bool
  | .client app => httpClientValidateCfg app
  | .server app => httpServerValidateCfg app

/-- The other end, which reads the message. -/
def readerOf : HttpConfig → HttpRole
  | .client _ => .server
  | .server _ => .client

/-- The lines in front of the fields. -/
def firstLines : HttpConfig → List (List Char)
  | .client app =>
      [SendRates.httpMethodName app.hcReqMethod ++ ([' '] ++ (httpObjectName app.hcReqObjectName ++
          " HTTP/1.1".toList)),
        "User-Agent: ".toList ++ SendRates.httpTpgUserAgent,
        "Host: ".toList ++ httpHostName app.hcReqHostName]
  | .server app =>
      ["HTTP/1.1 ".toList ++ SendRates.httpStatusName app.hsRespCode,
        "Server: ".toList ++ SendRates.httpTpgUserAgent]

/-- Lines with their ends. -/
def withEnds (lines : List (List Char)) : List UInt8 :=
  lines.flatMap fun line => strBytes line ++ [cr, lf]

/-- The names of a configuration hold no line end, and its fields are characters of a C string. -/
structure PlainTexts (cfg : HttpConfig) : Prop where
  names : ∀ name ∈ namesOf cfg, Undelimited cr lf (strBytes name)
  fields : ∀ ch ∈ fieldsText cfg, ch.toNat < 256

theorem singleBytes_of_all
    {t : List Char}
    (hall : (t.all fun ch => ch.toNat < 256) = true) :
    ∀ ch ∈ t, ch.toNat < 256 := by
  simpa using hall

variable {cfg : HttpConfig} {lines : List (List Char)} {f body : List UInt8}

/-- The header: the first lines, the fields, the content length and the empty line. -/
theorem header_eq
    (cfg : HttpConfig) :
    cfg.header = withEnds (firstLines cfg) ++ strBytes (fieldsText cfg) ++
      cr :: lf :: (contentLengthLine (32 :: digitsOf cfg.size) ++ [cr, lf]) := by
  have hcrlf : strBytes SendRates.crlf = [cr, lf] := rfl
  have hversion : " HTTP/1.1\r\n".toList = " HTTP/1.1".toList ++ SendRates.crlf := rfl
  rw [← (contentLength_line cfg.size).1, HttpConfig.header]
  cases cfg with
  | client app =>
      simp only [HttpConfig.startLine, HttpConfig.fields, requestLine, requestFields, firstLines,
        fieldsText, fieldsOf, withEnds, List.flatMap_cons, List.flatMap_nil, List.flatten_cons,
        List.flatten_nil, hversion, strBytes_append, hcrlf, List.append_assoc, List.append_nil]
      rfl
  | server app =>
      have hstatus : statusLine app =
          "HTTP/1.1 ".toList ++ SendRates.httpStatusName app.hsRespCode ++ SendRates.crlf := rfl
      rw [HttpConfig.startLine, HttpConfig.fields, fieldsText, fieldsOf, hstatus, responseFields,
        firstLines]
      -- the texts themselves do not matter
      generalize "HTTP/1.1 ".toList = version
      generalize "Server: ".toList = server
      simp only [withEnds, List.flatMap_cons, List.flatMap_nil, List.flatten_cons,
        List.flatten_nil, strBytes_append, hcrlf, List.append_assoc, List.append_nil]
      rfl

/-- By induction on the lines in front of a text. -/
theorem linesOf_withEnds
    (hlines : ∀ line ∈ lines, Undelimited cr lf (strBytes line)) :
    linesOf (withEnds lines ++ f) = lines.map strBytes ++ linesOf f := by
  induction lines with
  | nil =>
      rfl
  | cons line lines ih =>
      rw [List.forall_mem_cons] at hlines
      have hassoc : withEnds (line :: lines) ++ f =
          strBytes line ++ cr :: lf :: (withEnds lines ++ f) := by
        simp [withEnds]
      rw [hassoc, linesOf_line (undelimited_append hlines.1 (by decide)), ih hlines.2,
        List.map_cons, List.cons_append]

/-- The lines in front of the fields are fields of other names. -/
theorem firstLines_ok
    (hvalid : validateCfg cfg = true)
    (hplain : PlainTexts cfg) :
    ∀ line ∈ firstLines cfg, Undelimited cr lf (strBytes line) ∧ FieldLine (strBytes line) ∧
      ¬ httpContentLenStr <+: strBytes line := by
  have hother : ∀ (c d : UInt8) (l : List UInt8), (c, d) ≠ (84, 114) → (c, d) ≠ (67, 111) →
      FieldLine (c :: d :: l) ∧ ¬ httpContentLenStr <+: c :: d :: l := by
    intro c d l htr hco
    refine ⟨⟨List.cons_ne_nil _ _, fun hpre => htr ?_⟩, fun hpre => hco ?_⟩
    all_goals
      obtain ⟨hc, hpre⟩ := List.cons_prefix_cons.1 hpre
      rw [← hc, ← (List.cons_prefix_cons.1 hpre).1]
  cases cfg with
  | client app =>
      have hnames := hplain.names
      simp only [namesOf, List.forall_mem_cons] at hnames
      obtain ⟨hobject, hhost, -⟩ := hnames
      have hrequest : ∀ method : List Char, cr ∉ strBytes method →
          Undelimited cr lf (strBytes (method ++ ([' '] ++ (httpObjectName app.hcReqObjectName ++
            " HTTP/1.1".toList)))) := by
        intro method hmethod
        rw [strBytes_append, strBytes_append, strBytes_append]
        exact append_undelimited hmethod
          (append_undelimited (by decide) (undelimited_append hobject (by decide)))
      have hmethod : app.hcReqMethod = .get ∨ app.hcReqMethod = .head := by
        rw [validateCfg, httpClientValidateCfg] at hvalid
        split at hvalid
        next hget => exact Or.inl hget
        next hhead => exact Or.inr hhead
        next => cases hvalid
      simp only [firstLines, List.forall_mem_cons]
      refine ⟨⟨hrequest _ ?_, ?_⟩, ⟨undelimited_of_not_mem (by decide), by decide, by decide⟩,
        ⟨?_, hother _ _ _ (by decide) (by decide)⟩, by simp⟩
      · rcases hmethod with hget | hhead
        · rw [hget]
          decide
        · rw [hhead]
          decide
      · rcases hmethod with hget | hhead
        · rw [hget]
          exact hother _ _ _ (by decide) (by decide)
        · rw [hhead]
          exact hother _ _ _ (by decide) (by decide)
      · rw [strBytes_append]
        exact append_undelimited (by decide) hhost
  | server app =>
      simp only [firstLines, List.forall_mem_cons]
      refine ⟨⟨undelimited_of_not_mem ?_, hother _ _ _ (by decide) (by decide)⟩,
        ⟨undelimited_of_not_mem (by decide), by decide, by decide⟩, by simp⟩
      cases app.hsRespCode <;> decide

/-- The check that both callbacks make last. -/
theorem sizeAndFields_spec
    {size : Nat} {fields : Option TestCaseConfig.Text}
    (hvalid : (if size ≥ httpContentLengthInvalid then false
      else httpValidateFields fields) = true) :
    size < httpContentLengthInvalid ∧ httpValidateFields fields = true := by
  split at hvalid
  next => cases hvalid
  next hsize => exact ⟨not_le.1 hsize, hvalid⟩

/-- What the callback looks at besides the method or the status. -/
theorem validateCfg_spec
    (hvalid : validateCfg cfg = true) :
    cfg.size < httpContentLengthInvalid ∧ httpValidateFields (fieldsOf cfg) = true := by
  cases cfg with
  | client app =>
      rw [validateCfg, httpClientValidateCfg] at hvalid
      split at hvalid
      next => exact sizeAndFields_spec hvalid
      next => exact sizeAndFields_spec hvalid
      next => cases hvalid
  | server app =>
      rw [validateCfg, httpServerValidateCfg] at hvalid
      split at hvalid
      next => exact sizeAndFields_spec hvalid
      next => exact sizeAndFields_spec hvalid
      next => cases hvalid

theorem strcasestr_append
    (s needle t : List Char) :
    strcasestr (s ++ (needle ++ t)) needle = true := by
  rw [strcasestr, List.any_eq_true]
  refine ⟨needle ++ t, (List.mem_tails _ _).2 (List.suffix_append _ _), ?_⟩
  rw [List.isPrefixOf_iff_prefix, List.map_append]
  exact List.prefix_append _ _

/-- The characters of a C string are those of its bytes. -/
theorem map_strBytes
    {s : List Char}
    (hs : ∀ ch ∈ s, ch.toNat < 256) :
    (strBytes s).map (fun b => Char.ofNat b.toNat) = s := by
  induction s with
  | nil =>
      rfl
  | cons ch s ih =>
      rw [List.forall_mem_cons] at hs
      have hch : Char.ofNat (UInt8.ofNat ch.toNat).toNat = ch := by
        rw [UInt8.toNat_ofNat', Nat.mod_eq_of_lt hs.1, Char.ofNat_toNat]
      rw [strBytes, List.map_cons, List.map_cons, hch]
      exact congrArg (ch :: ·) (ih hs.2)

/-- `http_validate_fields` leaves no line with a content length. -/
theorem fields_no_length
    (hvalid : validateCfg cfg = true)
    (hplain : PlainTexts cfg) :
    ∀ line ∈ linesOf (strBytes (fieldsText cfg)), ¬ httpContentLenStr <+: line := by
  have hfields := (validateCfg_spec hvalid).2
  rw [fieldsText]
  cases hcase : fieldsOf cfg with
  | none =>
      decide
  | some text =>
      have hbytes : ∀ ch ∈ text.chars, ch.toNat < 256 := by
        have hall := hplain.fields
        rwa [fieldsText, hcase] at hall
      rw [hcase, httpValidateFields, Bool.not_eq_true'] at hfields
      intro line hline hname
      obtain ⟨s, t, hsplit⟩ := hname.isInfix.trans (infix_of_mem_linesOf hline)
      -- the name stands in the text as well
      obtain ⟨l₁, t₁, hl₁, hs, ht⟩ := List.map_eq_append_iff.1 hsplit.symm
      obtain ⟨s₁, n₁, rfl, -, hn⟩ := List.map_eq_append_iff.1 hs
      have htext : s₁ ++ n₁ ++ t₁ = text.chars := hl₁.symm
      have hname : n₁ = TestCaseConfig.httpContentLenStr := by
        have hlt : ∀ ch ∈ n₁, ch.toNat < 256 := fun ch hch =>
          hbytes ch (by rw [← htext]; simp [hch])
        rw [← map_strBytes hlt, strBytes, hn]
        decide
      rw [← htext, List.append_assoc, hname, strcasestr_append] at hfields
      cases hfields

/-- The header, in front of any bytes. -/
theorem headerThen_header
    {contentLength : Nat} {body' : List UInt8}
    (hvalid : validateCfg cfg = true)
    (hplain : PlainTexts cfg) :
    ((∀ line ∈ linesOf (strBytes (fieldsText cfg)), FieldLine line) ∧
      (HeaderThen httpContentLengthInvalid (cfg.header ++ body) contentLength body' ↔
        contentLength = cfg.size ∧ body' = body)) ∨
    ((¬ ∀ line ∈ linesOf (strBytes (fieldsText cfg)), FieldLine line) ∧
      (HeaderThen httpContentLengthInvalid (cfg.header ++ body) contentLength body' →
        contentLength = httpContentLengthInvalid ∧ body' ≠ [])) := by
  have hsize := (validateCfg_spec hvalid).1
  have hfirst := firstLines_ok hvalid hplain
  have hno := fields_no_length hvalid hplain
  obtain ⟨-, hfield, hends⟩ := contentLength_line cfg.size
  have hlines := @linesOf_withEnds (firstLines cfg) (strBytes (fieldsText cfg))
    fun line hline => (hfirst line hline).1
  have hall : (∀ line ∈ linesOf (withEnds (firstLines cfg) ++ strBytes (fieldsText cfg)),
      FieldLine line) ↔ ∀ line ∈ linesOf (strBytes (fieldsText cfg)), FieldLine line := by
    rw [hlines, List.forall_mem_append, List.forall_mem_map]
    exact ⟨And.right, fun h => ⟨fun line hline => (hfirst line hline).2.1, h⟩⟩
  have hsplit : cfg.header ++ body =
      withEnds (firstLines cfg) ++ strBytes (fieldsText cfg) ++ cr :: lf ::
        (httpContentLenStr ++ 32 :: digitsOf cfg.size ++ cr :: lf :: ([] ++ cr :: lf :: body)) := by
    rw [header_eq, contentLengthLine]
    simp
  have hnone : ∀ line ∈ linesOf (withEnds (firstLines cfg) ++ strBytes (fieldsText cfg)),
      ¬ httpContentLenStr <+: line := by
    rw [hlines, List.forall_mem_append, List.forall_mem_map]
    exact ⟨fun line hline => (hfirst line hline).2.2, hno⟩
  rw [hsplit]
  rcases @headerThen_text httpContentLengthInvalid contentLength _
    (httpContentLenStr ++ 32 :: digitsOf cfg.size ++ cr :: lf :: ([] ++ cr :: lf :: body)) body'
    hnone with ⟨hgood, hiff⟩ | ⟨hbad, hearly⟩
  · refine Or.inl ⟨hall.1 hgood, ?_⟩
    have hline : hdrField (httpContentLenStr ++ 32 :: digitsOf cfg.size ++ [cr, lf]) =
        .contentLength (some (cfg.size % 2 ^ 32)) := hfield
    rw [hiff, headerThen_line hends, hline, headerThen_line (undelimited_of_not_mem (by decide))]
    rw [Nat.mod_eq_of_lt (hsize.trans (by decide)), lengthAfter]
    constructor
    · rintro (⟨hnil, -⟩ | ⟨-, -, ⟨-, rfl, rfl⟩ | ⟨hnot, -⟩⟩)
      · cases hnil
      · exact ⟨rfl, rfl⟩
      · exact absurd rfl hnot
    · rintro ⟨rfl, rfl⟩
      exact Or.inr ⟨by simp, HdrField.noConfusion, Or.inl ⟨rfl, rfl, rfl⟩⟩
  · refine Or.inr ⟨mt hall.2 hbad, fun hheader => ?_⟩
    obtain ⟨rfl, hsuffix⟩ := hearly hheader
    refine ⟨rfl, ?_⟩
    rintro rfl
    have hnil := List.suffix_nil.1 hsuffix
    simp at hnil

/-- A whole message is what a build that succeeds leaves. -/
theorem complete_of_build
    {pool : MbufPool} {allocs : MessageWriting.Allocs} {memory : Memory}
    {c : List MessageWriting.PoolMbuf}
    (hrun : cfg.build pool.toPool allocs memory false = some ⟨none, .chain c⟩) :
    ∃ body, MessageWriting.poolBytes c = cfg.header ++ body ∧ body.length = cfg.size := by
  rcases @HttpConfig.build_cases allocs memory cfg false pool with
    ⟨-, err, mbuf, herr, -⟩ | ⟨-, c₁, n, hc, hbuilt⟩
  · rw [herr] at hrun
    cases hrun
  · rw [hbuilt] at hrun
    rcases @buildBody_cases pool.toPool allocs memory cfg false c₁ n hc with
      ⟨-, hfreed⟩ | ⟨-, c', hchain, ⟨⟨body, hbytes, hlength⟩, -⟩, -⟩
    · rw [hfreed] at hrun
      cases hrun
    · rw [hchain] at hrun
      obtain rfl : c' = c := by
        cases hrun
        rfl
      exact ⟨body, hbytes, by rw [hlength, if_neg Bool.false_ne_true]⟩

/-- With an mbuf for each part the build succeeds. -/
theorem exists_built
    {pool : MbufPool} {allocs : MessageWriting.Allocs}
    (memory : Memory)
    (hwritten : HeaderWritten cfg pool.toPool allocs)
    (hbody : BodyAllocated pool.toPool allocs 1 cfg.size) :
    ∃ c, cfg.build pool.toPool allocs memory false = some ⟨none, .chain c⟩ := by
  rcases @HttpConfig.build_cases allocs memory cfg false pool with
    ⟨hnot, -⟩ | ⟨-, c, n, hc, hbuilt⟩
  · exact absurd hwritten hnot
  · rcases @buildBody_cases pool.toPool allocs memory cfg false c n hc with
      ⟨⟨-, -, hlost⟩, -⟩ | ⟨-, c', hchain, -⟩
    · exact absurd hbody hlost
    · exact ⟨c', by rw [hbuilt, hchain]⟩

/--
The message that is built from an accepted configuration is one complete message to the parser of
the other end if and only if the fields have no empty line and no transfer encoding.
-/
theorem builtMessage_iff
    {pool : MbufPool} {allocs : MessageWriting.Allocs} {memory : Memory}
    {c : List MessageWriting.PoolMbuf}
    (hvalid : validateCfg cfg = true)
    (hplain : PlainTexts cfg)
    (hrun : cfg.build pool.toPool allocs memory false = some ⟨none, .chain c⟩) :
    HttpMessage (readerOf cfg) (MessageWriting.poolBytes c) ↔
      ∀ line ∈ linesOf (strBytes (fieldsText cfg)), FieldLine line := by
  obtain ⟨body, hbytes, hlength⟩ := complete_of_build hrun
  have hsize := (validateCfg_spec hvalid).1
  rw [hbytes, httpMessage_iff]
  constructor
  · rintro ⟨contentLength, body', hheader, hbody⟩
    rcases @headerThen_header cfg body contentLength body' hvalid hplain with
      ⟨hall, -⟩ | ⟨-, hearly⟩
    · exact hall
    · obtain ⟨rfl, hmore⟩ := hearly hheader
      rw [BodyOf, if_pos rfl] at hbody
      exact absurd hbody.2 hmore
  · intro hall
    rcases @headerThen_header cfg body cfg.size body hvalid hplain with ⟨-, hiff⟩ | ⟨hnot, -⟩
    · exact ⟨cfg.size, body, hiff.2 ⟨rfl, rfl⟩, by rwa [BodyOf, if_neg hsize.ne]⟩
    · exact absurd hall hnot

/-- A request with a body of one byte and the default fields. -/
theorem builtMessage_iff_one :
    ∃ c, oneByteRequest.build defaultMbufPool.toPool some (fun _ _ => 0) false =
        some ⟨none, .chain c⟩ ∧ HttpMessage .server (MessageWriting.poolBytes c) := by
  obtain ⟨c, hrun⟩ := @exists_built oneByteRequest defaultMbufPool some (fun _ _ => 0)
    ⟨rfl, by decide +kernel⟩ (by decide)
  have hnames : ∀ name ∈ namesOf oneByteRequest, Undelimited cr lf (strBytes name) := by
    decide
  have hfields : ∀ ch ∈ fieldsText oneByteRequest, ch.toNat < 256 :=
    singleBytes_of_all (by decide)
  have hiff := @builtMessage_iff oneByteRequest _ _ _ _ (by decide) ⟨hnames, hfields⟩ hrun
  exact ⟨c, hrun, hiff.2 (by decide)⟩

end Messages

end MessageParsing
end Warp17
