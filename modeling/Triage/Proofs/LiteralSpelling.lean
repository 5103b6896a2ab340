import Mathlib
import Triage.Python.Literal

/-!
# Every spelling of a string is read as the string

A text can be written as a literal in many ways: with either quote, once or three times, raw or
not, and without `r` every character by itself, by a letter, or by its code in octal or
hexadecimal digits, with lines joined anywhere. `Spelling` lists these ways, and reading a literal
undoes each of them.
-/

namespace Triage.Python

/-! ### Spellings -/

/-- The letters that stand for a single character after a backslash, and that character. -/
def letterEscapes : List (Char × Char) :=
  [('\\', '\\'), ('\'', '\''), ('"', '"'), ('n', '\n'), ('t', '\t'), ('r', '\r'), ('a', '\x07'),
    ('b', '\x08'), ('f', '\x0c'), ('v', '\x0b')]

/-- The letters that announce a code in hexadecimal digits, and how many digits it has. -/
def codeEscapes : List (Char × Nat) := [('x', 2), ('u', 4), ('U', 8)]

/-- A digit with the value `v`, small or capital. -/
def IsDigit (base v : Nat) (d : Char) : Prop :=
  v < base ∧ (d = v.digitChar ∨ d = v.digitChar.toUpper)

/-- The digits of a number, the one that counts most first. -/
def Writes (base : Nat) (ds : List Char) (n : Nat) : Prop :=
  ∃ vs, List.Forall₂ (IsDigit base) vs ds ∧ Nat.ofDigits base vs.reverse = n

/-- What a literal begins and ends with: a quote, or three of it. -/
structure Delimiter where
  quote : Char
  long : Bool
  known : quote = '\'' ∨ quote = '"'

def Delimiter.marks (d : Delimiter) : List Char :=
  if d.long then [d.quote, d.quote, d.quote] else [d.quote]

/-- Whether the first marks that no backslash hides are those right after the body. -/
def endsAt (marks : List Char) : List Char → Bool
  | [] => true
  | ['\\'] => false
  | '\\' :: _ :: cs => endsAt marks cs
  | c :: cs => !marks.isPrefixOf (c :: cs ++ marks) && endsAt marks cs

/-- The ways to spell a character. -/
inductive Spells (d : Delimiter) : Char → List Char → Prop
  | itself {c : Char} (plain : c ≠ '\\')
      (short : d.long = false → c ≠ '\n' ∧ c ≠ '\r' ∧ c ≠ d.quote) : Spells d c [c]
  | letter {c e : Char} (known : (e, c) ∈ letterEscapes) : Spells d c ['\\', e]
  | octal {c : Char} {ds : List Char} (three : ds.length = 3) (code : Writes 8 ds c.toNat) :
      Spells d c ('\\' :: ds)
  | hexadecimal {c e : Char} {ds : List Char} (known : (e, ds.length) ∈ codeEscapes)
      (code : Writes 16 ds c.toNat) : Spells d c ('\\' :: e :: ds)

/-- The ways to spell a text, with joined lines between its characters. -/
inductive Body (d : Delimiter) : List Char → List Char → Prop
  | nil : Body d [] []
  | unit {c : Char} {s u b : List Char} (first : Spells d c u) (rest : Body d s b) :
      Body d (c :: s) (u ++ b)
  | join {s b : List Char} (rest : Body d s b) : Body d s ('\\' :: '\n' :: b)
  | joinReturn {s b : List Char} (rest : Body d s b) : Body d s ('\\' :: '\r' :: '\n' :: b)

/-- The text of a literal with the given letters and body. -/
def literalText (letters : String) (d : Delimiter) (body : List Char) : String :=
  letters ++ String.ofList (d.marks ++ (body ++ d.marks))

/-- The literals that spell `s`. -/
inductive Spelling (s : String) : String → Prop
  | plain {letters : String} {d : Delimiter} {body : List Char} (known : letters ∈ ["", "u", "U"])
      (spelled : Body d s.toList body) (closed : endsAt d.marks body = true) :
      Spelling s (literalText letters d body)
  | raw {letters : String} {d : Delimiter} (known : letters ∈ ["r", "R"])
      (closed : endsAt d.marks s.toList = true) : Spelling s (literalText letters d s.toList)

/-! ### Digits -/

theorem digitValue?_of_isDigit {base v : Nat} {d : Char} (hbase : base = 8 ∨ base = 16)
    (h : IsDigit base v d) : digitValue? base d = some v := by
  have octal : ∀ v < 8, digitValue? 8 v.digitChar = some v ∧
      digitValue? 8 v.digitChar.toUpper = some v := by decide
  have hexadecimal : ∀ v < 16, digitValue? 16 v.digitChar = some v ∧
      digitValue? 16 v.digitChar.toUpper = some v := by decide
  obtain ⟨hv, hd⟩ := h
  rcases hbase with rfl | rfl
  · rcases hd with rfl | rfl
    · exact (octal v hv).1
    · exact (octal v hv).2
  · rcases hd with rfl | rfl
    · exact (hexadecimal v hv).1
    · exact (hexadecimal v hv).2

/-- Digits are taken as they stand, and no more than are asked for. -/
theorem digitsAt_append {base : Nat} {vs : List Nat} {ds : List Char}
    (hbase : base = 8 ∨ base = 16) (h : List.Forall₂ (IsDigit base) vs ds) (rest : List Char) :
    digitsAt base ds.length (ds ++ rest) = ds := by
  induction h with
  | nil => rfl
  | cons hd _ ih => simp [digitsAt, digitValue?_of_isDigit hbase hd, ih]

theorem foldl_digits {base : Nat} {vs : List Nat} {ds : List Char} (hbase : base = 8 ∨ base = 16)
    (h : List.Forall₂ (IsDigit base) vs ds) (n : Nat) :
    ds.foldl (fun n d => n * base + (digitValue? base d).getD 0) n =
      n * base ^ ds.length + Nat.ofDigits base vs.reverse := by
  induction h generalizing n with
  | nil => simp
  | @cons v d vs ds hd htail ih =>
    have hlength : vs.reverse.length = ds.length := by rw [List.length_reverse, htail.length_eq]
    rw [List.foldl_cons, ih, digitValue?_of_isDigit hbase hd, List.reverse_cons,
      Nat.ofDigits_append, Nat.ofDigits_singleton, hlength, List.length_cons, Option.getD_some]
    ring

theorem numberOf_of_writes {base n : Nat} {ds : List Char} (hbase : base = 8 ∨ base = 16)
    (h : Writes base ds n) : numberOf base ds = n := by
  obtain ⟨vs, hdigits, rfl⟩ := h
  simp [numberOf, foldl_digits hbase hdigits]

theorem charOf?_toNat (c : Char) : charOf? c.toNat = some c := by
  have hvalid : c.toNat.isValidChar := c.valid
  rw [charOf?, if_pos hvalid, Char.ofNat_toNat]

/-! ### Escapes -/

/-- An octal digit is neither a line end nor one of the letters. -/
theorem octal_not_letter {v : Nat} {d : Char} (h : IsDigit 8 v d) :
    d ≠ '\n' ∧ d ≠ '\r' ∧ letterEscape? d = none := by
  obtain ⟨hv, hd⟩ := h
  interval_cases v <;> rcases hd with rfl | rfl <;> decide

theorem unitAt_letter {c e : Char} (h : (e, c) ∈ letterEscapes) (rest : List Char) :
    unitAt '\\' (e :: rest) = ([c], rest) := by
  simp only [letterEscapes, List.mem_cons, Prod.mk.injEq, List.not_mem_nil, or_false] at h
  rcases h with ⟨rfl, rfl⟩ | ⟨rfl, rfl⟩ | ⟨rfl, rfl⟩ | ⟨rfl, rfl⟩ | ⟨rfl, rfl⟩ | ⟨rfl, rfl⟩ |
    ⟨rfl, rfl⟩ | ⟨rfl, rfl⟩ | ⟨rfl, rfl⟩ | ⟨rfl, rfl⟩ <;> rfl

/-- Octal digits with no more to take behind them are read as their character. -/
theorem unitAt_octal {c d : Char} {ds rest : List Char} (hcode : Writes 8 (d :: ds) c.toNat)
    (htaken : digitsAt 8 2 (ds ++ rest) = ds) : unitAt '\\' (d :: (ds ++ rest)) = ([c], rest) := by
  obtain ⟨vs, hdigits, -⟩ := id hcode
  cases hdigits with
  | cons hd _ =>
    obtain ⟨hline, hreturn, hletter⟩ := octal_not_letter hd
    simp [unitAt, hreturn, hletter, digitValue?_of_isDigit (.inl rfl) hd, htaken,
      numberOf_of_writes (.inl rfl) hcode, charOf?_toNat]

/-- A code is read as its character when it has all its digits and there is one, and is kept
otherwise. -/
theorem unitAt_code {e : Char} {width : Nat} {ds rest : List Char}
    (hknown : (e, width) ∈ codeEscapes) (htaken : digitsAt 16 width (ds ++ rest) = ds) :
    unitAt '\\' (e :: (ds ++ rest)) =
      match if ds.length = width then charOf? (numberOf 16 ds) else none with
      | some c => ([c], rest)
      | none => ('\\' :: e :: ds, rest) := by
  have hletter : e ≠ '\n' ∧ e ≠ '\r' ∧ letterEscape? e = none ∧ digitValue? 8 e = none ∧
      codeWidth? e = some width := by
    simp only [codeEscapes, List.mem_cons, Prod.mk.injEq, List.not_mem_nil, or_false] at hknown
    rcases hknown with ⟨rfl, rfl⟩ | ⟨rfl, rfl⟩ | ⟨rfl, rfl⟩ <;> decide
  obtain ⟨hline, hreturn, hnone, hdigit, hwidth⟩ := hletter
  cases hchar : (if ds.length = width then charOf? (numberOf 16 ds) else none) <;>
    simp [unitAt, hreturn, hnone, hdigit, hwidth, htaken, hchar]

theorem unitAt_hexadecimal {c e : Char} {ds : List Char} (hknown : (e, ds.length) ∈ codeEscapes)
    (hcode : Writes 16 ds c.toNat) (rest : List Char) :
    unitAt '\\' (e :: (ds ++ rest)) = ([c], rest) := by
  obtain ⟨vs, hdigits, -⟩ := id hcode
  have htaken := digitsAt_append (.inr rfl) hdigits rest
  rw [unitAt_code hknown htaken, if_pos rfl, numberOf_of_writes (.inr rfl) hcode, charOf?_toNat]

/-- A spelled character is read as the character, whatever follows it. -/
theorem unescape_spells {d : Delimiter} {c : Char} {u : List Char} (h : Spells d c u)
    (rest : List Char) : unescape (u ++ rest) = c :: unescape rest := by
  cases h with
  | itself plain _ => simp [unescape, unitAt, plain]
  | letter known => simp [unescape, unitAt_letter known]
  | octal three code =>
    obtain ⟨vs, hdigits, -⟩ := id code
    cases hdigits with
    | nil => cases three
    | @cons v d vs ds hd htail =>
      have htaken : digitsAt 8 2 (ds ++ rest) = ds :=
        Nat.succ.inj three ▸ digitsAt_append (.inl rfl) htail rest
      simp [unescape, unitAt_octal code htaken]
  | hexadecimal known code => simp [unescape, unitAt_hexadecimal known code]

theorem unescape_body {d : Delimiter} {s b : List Char} (h : Body d s b) : unescape b = s := by
  induction h with
  | nil => simp [unescape]
  | unit first _ ih => rw [unescape_spells first, ih]
  | join _ ih => simpa [unescape, unitAt] using ih
  | joinReturn _ ih => simpa [unescape, unitAt] using ih

/-! ### Delimiters -/

theorem isQuote_quote (d : Delimiter) : isQuote d.quote = true := by
  rcases d.known with h | h <;> rw [h] <;> rfl

theorem utf8Size_quote (d : Delimiter) : d.quote.utf8Size = 1 := by
  rcases d.known with h | h <;> rw [h] <;> rfl

theorem byteLength_nil : byteLength [] = 0 := rfl

theorem byteLength_cons (c : Char) (cs : List Char) :
    byteLength (c :: cs) = c.utf8Size + byteLength cs := rfl

theorem byteLength_append (xs ys : List Char) :
    byteLength (xs ++ ys) = byteLength xs + byteLength ys := by
  induction xs with
  | nil => rw [List.nil_append, byteLength_nil, Nat.zero_add]
  | cons c xs ih => rw [List.cons_append, byteLength_cons, byteLength_cons, ih, Nat.add_assoc]

/-- A body between single quotes does not begin with one. -/
theorem head_ne_of_endsAt {d : Delimiter} {c : Char} {cs : List Char}
    (h : endsAt [d.quote] (c :: cs) = true) : c ≠ d.quote := by
  rintro rfl
  rcases d.known with hq | hq <;> simp [endsAt, hq] at h

theorem quotedBody?_long (d : Delimiter) (body : List Char) :
    quotedBody? (d.quote :: d.quote :: d.quote :: (body ++ [d.quote, d.quote, d.quote])) =
      some body := by
  have hlong : 6 ≤ byteLength (d.quote :: d.quote :: d.quote ::
        (body ++ [d.quote, d.quote, d.quote])) ∧
      [d.quote, d.quote, d.quote].isPrefixOf (d.quote :: d.quote :: d.quote ::
        (body ++ [d.quote, d.quote, d.quote])) = true := by
    constructor
    · simp only [byteLength_cons, byteLength_append, byteLength_nil, utf8Size_quote]
      omega
    · simp
  simp only [quotedBody?, if_pos hlong]
  simp [dropBytes, utf8Size_quote]

theorem quotedBody?_short {d : Delimiter} {body : List Char}
    (h : endsAt [d.quote] body = true) :
    quotedBody? (d.quote :: (body ++ [d.quote])) = some body := by
  -- an empty literal is too short for three quotes at each end, any other has another character
  have hshort : ¬ (6 ≤ byteLength (d.quote :: (body ++ [d.quote])) ∧
      [d.quote, d.quote, d.quote].isPrefixOf (d.quote :: (body ++ [d.quote])) = true) := by
    rintro ⟨hlength, hprefix⟩
    cases body with
    | nil =>
      simp only [List.nil_append, byteLength_cons, byteLength_nil, utf8Size_quote] at hlength
      omega
    | cons c cs => simp [(head_ne_of_endsAt h).symm] at hprefix
  simp only [quotedBody?, if_neg hshort]
  simp [dropBytes, utf8Size_quote]

/-- Both delimiters are found, and what stands between them is the body. -/
theorem quotedBody?_marks {d : Delimiter} {body : List Char} (h : endsAt d.marks body = true) :
    quotedBody? (d.marks ++ (body ++ d.marks)) = some body := by
  obtain ⟨q, long, known⟩ := d
  cases long with
  | true => exact quotedBody?_long ⟨q, true, known⟩ body
  | false => exact quotedBody?_short h

theorem marks_eq_cons (d : Delimiter) : ∃ more, d.marks = d.quote :: more := by
  unfold Delimiter.marks
  split
  · exact ⟨_, rfl⟩
  · exact ⟨_, rfl⟩

/-- The letters of a literal are what stands before its first quote. -/
theorem letters_literalText {letters : String} (d : Delimiter) (body : List Char)
    (hletters : ∀ c ∈ letters.toList, isQuote c = false) :
    (literalText letters d body).toList.takeWhile (!isQuote ·) = letters.toList ∧
      (literalText letters d body).toList.dropWhile (!isQuote ·) =
        d.marks ++ (body ++ d.marks) := by
  obtain ⟨more, hmarks⟩ := marks_eq_cons d
  have hall : ∀ c ∈ letters.toList, (!isQuote c) = true := by simpa using hletters
  have hstop : (!isQuote d.quote) = false := by
    rw [isQuote_quote]
    rfl
  rw [literalText, String.toList_append, String.toList_ofList, List.takeWhile_append_of_pos hall,
    List.dropWhile_append_of_pos hall, hmarks, List.cons_append, List.takeWhile_cons_of_neg
      (by simp [hstop]), List.dropWhile_cons_of_neg (by simp [hstop]), List.append_nil]
  exact ⟨rfl, rfl⟩

/-- A literal without the letters of other kinds of literals has the value of its body. -/
theorem decodeLiteral_literalText {letters : String} {d : Delimiter} {body : List Char}
    (hknown : letters ∈ ["", "u", "U", "r", "R"]) (hclosed : endsAt d.marks body = true) :
    decodeLiteral (literalText letters d body) = some (String.ofList
      (if letters.toList.any (·.toLower == 'r') then body else unescape body)) := by
  have hquotes : ∀ letters ∈ ["", "u", "U", "r", "R"], letters.toList.all (!isQuote ·) = true := by
    decide
  have hkinds : ∀ letters ∈ ["", "u", "U", "r", "R"],
      (letters.toList.any (·.toLower == 'f') || letters.toList.any (·.toLower == 'b') ||
        letters.toList.any (·.toLower == 't')) = false := by decide
  have hletters : ∀ c ∈ letters.toList, isQuote c = false := by
    simpa using hquotes letters hknown
  have hplain := hkinds letters hknown
  obtain ⟨hfront, hquoted⟩ := letters_literalText d body hletters
  obtain ⟨more, hmarks⟩ := marks_eq_cons d
  have hbody := quotedBody?_marks hclosed
  simp only [decodeLiteral, hfront, hquoted, hplain]
  rw [hbody, hmarks]
  rfl

/-- A prefix of a formatted or byte string leaves nothing to read. -/
theorem decodeLiteral_eq_none {letters rest : String}
    (hletters : ∀ c ∈ letters.toList, isQuote c = false)
    (hother : ∃ c ∈ letters.toList, c ∈ ['f', 'F', 'b', 'B', 't', 'T']) :
    decodeLiteral (letters ++ rest) = none := by
  have hall : ∀ c ∈ letters.toList, (!isQuote c) = true := by simpa using hletters
  have hfront : (letters ++ rest).toList.takeWhile (!isQuote ·) =
      letters.toList ++ rest.toList.takeWhile (!isQuote ·) := by
    rw [String.toList_append, List.takeWhile_append_of_pos hall]
  have hkind : (((letters ++ rest).toList.takeWhile (!isQuote ·)).any (·.toLower == 'f') ||
      ((letters ++ rest).toList.takeWhile (!isQuote ·)).any (·.toLower == 'b') ||
      ((letters ++ rest).toList.takeWhile (!isQuote ·)).any (·.toLower == 't')) = true := by
    obtain ⟨c, hc, hcases⟩ := hother
    have hlower : ['f', 'F', 'b', 'B', 't', 'T'].all
        (fun c => c.toLower == 'f' || c.toLower == 'b' || c.toLower == 't') = true := by decide
    rw [hfront]
    simp only [List.any_append, Bool.or_eq_true, List.any_eq_true, beq_iff_eq]
    have hc' := List.all_eq_true.mp hlower c hcases
    simp only [Bool.or_eq_true, beq_iff_eq] at hc'
    rcases hc' with (h | h) | h
    · exact Or.inl (Or.inl (Or.inl ⟨c, hc, h⟩))
    · exact Or.inl (Or.inr (Or.inl ⟨c, hc, h⟩))
    · exact Or.inr (Or.inl ⟨c, hc, h⟩)
  simp only [decodeLiteral]
  split
  · rfl
  · rw [if_pos hkind]

/-- Reading a literal gives back the string that it spells, whichever way it spells it. A literal
of another kind gives nothing, whatever follows its letters. -/
theorem decodeLiteral_of_spelling :
    (∀ s text, Spelling s text → decodeLiteral text = some s) ∧
      ∀ letters rest : String, (∀ c ∈ letters.toList, isQuote c = false) →
        (∃ c ∈ letters.toList, c ∈ ['f', 'F', 'b', 'B', 't', 'T']) →
        decodeLiteral (letters ++ rest) = none := by
  constructor
  · intro s text h
    cases h with
    | @plain letters d body known spelled closed =>
      have hknown : letters ∈ ["", "u", "U", "r", "R"] :=
        List.mem_append_left ["r", "R"] known
      have hcooked : ∀ letters ∈ ["", "u", "U"], letters.toList.any (·.toLower == 'r') = false := by
        decide
      rw [decodeLiteral_literalText hknown closed, hcooked letters known, if_neg (by simp),
        unescape_body spelled, String.ofList_toList]
    | @raw letters d known closed =>
      have hknown : letters ∈ ["", "u", "U", "r", "R"] :=
        List.mem_append_right ["", "u", "U"] known
      have hraw : ∀ letters ∈ ["r", "R"], letters.toList.any (·.toLower == 'r') = true := by
        decide
      rw [decodeLiteral_literalText hknown closed, hraw letters known, if_pos rfl,
        String.ofList_toList]
  · intro letters rest hletters hother
    exact decodeLiteral_eq_none hletters hother

def tripleQuote : Delimiter := ⟨'"', true, .inr rfl⟩

def singleQuote : Delimiter := ⟨'\'', false, .inl rfl⟩

/-- A code, a joined line, a code before a digit, a quote by itself, and digits of either case. -/
theorem body_mixed :
    Body tripleQuote "aA7\"\nê".toList "\\x61\\\r\n\\1017\"\\n\\u00Ea".toList := by
  have hfirst : Writes 16 ['6', '1'] 'a'.toNat :=
    ⟨[6, 1], .cons ⟨by decide, .inl rfl⟩ (.cons ⟨by decide, .inl rfl⟩ .nil), by decide⟩
  have hsecond : Writes 8 ['1', '0', '1'] 'A'.toNat :=
    ⟨[1, 0, 1], .cons ⟨by decide, .inl rfl⟩ (.cons ⟨by decide, .inl rfl⟩
      (.cons ⟨by decide, .inl rfl⟩ .nil)), by decide⟩
  have hlast : Writes 16 ['0', '0', 'E', 'a'] 'ê'.toNat :=
    ⟨[0, 0, 14, 10], .cons ⟨by decide, .inl rfl⟩ (.cons ⟨by decide, .inl rfl⟩
      (.cons ⟨by decide, .inr rfl⟩ (.cons ⟨by decide, .inl rfl⟩ .nil))), by decide⟩
  exact .unit (.hexadecimal (by decide) hfirst) <| .joinReturn <| .unit (.octal rfl hsecond) <|
    .unit (.itself (by decide) (by decide)) <| .unit (.itself (by decide) (by decide)) <|
    .unit (.letter (by decide)) <| .unit (.hexadecimal (by decide) hlast) .nil

theorem spelling_mixed :
    Spelling "aA7\"\nê" "U\"\"\"\\x61\\\r\n\\1017\"\\n\\u00Ea\"\"\"" :=
  @Spelling.plain _ "U" _ _ (by decide) body_mixed (by decide)

theorem spelling_raw : Spelling "\\'" "R'\\''" :=
  @Spelling.raw _ "R" singleQuote (by decide) (by decide)

theorem decodeLiteral_of_spelling_mixed :
    Spelling "aA7\"\nê" "U\"\"\"\\x61\\\r\n\\1017\"\\n\\u00Ea\"\"\"" ∧
      decodeLiteral "U\"\"\"\\x61\\\r\n\\1017\"\\n\\u00Ea\"\"\"" = some "aA7\"\nê" ∧
      Spelling "\\'" "R'\\''" ∧ decodeLiteral "R'\\''" = some "\\'" ∧
      (∀ c ∈ "rB".toList, isQuote c = false) ∧
      (∃ c ∈ "rB".toList, c ∈ ['f', 'F', 'b', 'B', 't', 'T']) ∧
      decodeLiteral ("rB" ++ "'x'") = none := by
  have hletters : ∀ c ∈ "rB".toList, isQuote c = false := by
    simpa using (by decide : "rB".toList.all (!isQuote ·) = true)
  have hother : ∃ c ∈ "rB".toList, c ∈ ['f', 'F', 'b', 'B', 't', 'T'] := ⟨'B', by simp, by simp⟩
  exact ⟨spelling_mixed, decodeLiteral_of_spelling.1 _ _ spelling_mixed, spelling_raw,
    decodeLiteral_of_spelling.1 _ _ spelling_raw, hletters, hother,
    decodeLiteral_of_spelling.2 _ _ hletters hother⟩

end Triage.Python
