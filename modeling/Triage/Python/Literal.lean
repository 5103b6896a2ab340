/-!
# Values of string literals

`decodeLiteral` gives the value of a plain string literal from its text. It looks only at the
letters in front, the quotes and the escapes, and does not check that the text is a literal.
-/

namespace Triage.Python

/-- The value of a digit in the given base. -/
def digitValue? (base : Nat) (c : Char) : Option Nat :=
  let value :=
    if '0' ≤ c ∧ c ≤ '9' then some (c.toNat - '0'.toNat)
    else if 'a' ≤ c ∧ c ≤ 'z' then some (c.toNat - 'a'.toNat + 10)
    else if 'A' ≤ c ∧ c ≤ 'Z' then some (c.toNat - 'A'.toNat + 10)
    else none
  value.filter (· < base)

def digitsAt (base : Nat) : Nat → List Char → List Char
  | 0, _ => []
  | _ + 1, [] => []
  | n + 1, c :: cs => if (digitValue? base c).isSome then c :: digitsAt base n cs else []

def numberOf (base : Nat) (ds : List Char) : Nat :=
  ds.foldl (fun n d => n * base + (digitValue? base d).getD 0) 0

/-- The character with a code, unless the code is that of a surrogate or too large. -/
def charOf? (n : Nat) : Option Char :=
  if n.isValidChar then some (Char.ofNat n) else none

/-- The character that a letter after a backslash stands for. -/
def letterEscape? (c : Char) : Option Char :=
  match c with
  | '\\' => some '\\'
  | '\'' => some '\''
  | '"' => some '"'
  | 'n' => some '\n'
  | 't' => some '\t'
  | 'r' => some '\r'
  | 'a' => some '\x07'
  | 'b' => some '\x08'
  | 'f' => some '\x0c'
  | 'v' => some '\x0b'
  | _ => none

/-- How many digits a letter after a backslash calls for. -/
def codeWidth? (c : Char) : Option Nat :=
  match c with
  | 'x' => some 2
  | 'u' => some 4
  | 'U' => some 8
  | _ => none

/-- The unit at the front of a text: its value and the text after it. Escapes that mean nothing
stay as they are. -/
def unitAt (c : Char) (cs : List Char) : List Char × List Char :=
  if c ≠ '\\' then ([c], cs)
  else
    match cs with
    | [] => (['\\'], [])
    | '\n' :: rest => ([], rest)
    | '\r' :: '\n' :: rest => ([], rest)
    | '\r' :: rest => ([], rest)
    | d :: rest =>
      match letterEscape? d with
      | some v => ([v], rest)
      | none =>
        if (digitValue? 8 d).isSome then
          let ds := d :: digitsAt 8 2 rest
          match charOf? (numberOf 8 ds) with
          | some v => ([v], rest.drop (ds.length - 1))
          | none => ('\\' :: ds, rest.drop (ds.length - 1))
        else
          match codeWidth? d with
          | some width =>
            let ds := digitsAt 16 width rest
            match if ds.length = width then charOf? (numberOf 16 ds) else none with
            | some v => ([v], rest.drop ds.length)
            | none => ('\\' :: d :: ds, rest.drop ds.length)
          | none => (['\\', d], rest)

theorem unitAt_length_le (c : Char) (cs : List Char) :
    (unitAt c cs).2.length ≤ cs.length := by
  unfold unitAt
  split
  · simp
  · split <;> try (simp only [List.length_cons, List.length_nil]; omega)
    split
    · simp
    · split
      · dsimp only
        split <;> simp only [List.length_drop, List.length_cons] <;> omega
      · split
        · dsimp only
          split <;> simp only [List.length_drop, List.length_cons] <;> omega
        · simp

/-- The text with its escapes resolved. -/
def unescape : List Char → List Char
  | [] => []
  | c :: cs => (unitAt c cs).1 ++ unescape (unitAt c cs).2
termination_by cs => cs.length
decreasing_by
  have := unitAt_length_le c cs
  simp only [List.length_cons]
  omega

/-- The text without its first `n` bytes, if it has that many and the cut falls between
characters. -/
def dropBytes : Nat → List Char → Option (List Char)
  | 0, cs => some cs
  | _ + 1, [] => none
  | n + 1, c :: cs =>
    if c.utf8Size ≤ n + 1 then dropBytes (n + 1 - c.utf8Size) cs else none

def byteLength (cs : List Char) : Nat := cs.foldr (fun c n => c.utf8Size + n) 0

def isQuote (c : Char) : Bool := c == '"' || c == '\''

/-- What stands between the quotes, cut off at both ends without a look at the end. -/
def quotedBody? (quoted : List Char) : Option (List Char) :=
  match quoted with
  | [] => none
  | q :: _ =>
    let n := if 6 ≤ byteLength quoted ∧ [q, q, q].isPrefixOf quoted then 3 else 1
    (dropBytes n (quoted.drop n).reverse).map List.reverse

/-- The value of the literal with the given text; none for formatted and byte strings. -/
def decodeLiteral (text : String) : Option String :=
  let letters := text.toList.takeWhile (!isQuote ·)
  let quoted := text.toList.dropWhile (!isQuote ·)
  let has (c : Char) := letters.any (·.toLower == c)
  match quoted with
  | [] => none
  | _ :: _ =>
    if has 'f' || has 'b' || has 't' then none
    else
      (quotedBody? quoted).map fun body =>
        String.ofList (if has 'r' then body else unescape body)

end Triage.Python
