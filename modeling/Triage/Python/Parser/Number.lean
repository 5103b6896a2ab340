/-!
# Number literals

The length of the longest number at the front of a text. Digits may be grouped by underscores; a
group may end in one. Prefixed and long integers, fractions, exponents and imaginary units are all
read here.
-/

namespace Triage.Python.Parser

/-- The length of the decimal digits at the front, each run of which may end in an underscore. -/
def digitsLength : List Char → Nat
  | '_' :: _ => 0
  | c :: '_' :: cs => if c.isDigit then digitsLength cs + 2 else 0
  | c :: cs => if c.isDigit then digitsLength cs + 1 else 0
  | [] => 0

/-- The length of digits of another base, each run of which may begin with an underscore. -/
def basedLength (isDigit : Char → Bool) : List Char → Nat
  | '_' :: c :: cs => if isDigit c then basedLength isDigit cs + 2 else 0
  | c :: cs => if isDigit c then basedLength isDigit cs + 1 else 0
  | [] => 0

def isHexDigit (c : Char) : Bool :=
  c.isDigit || ('a' ≤ c && c ≤ 'f') || ('A' ≤ c && c ≤ 'F')

def isOctalDigit (c : Char) : Bool := '0' ≤ c && c ≤ '7'

/-- One when the text begins with one of `letters`, else zero. -/
def suffixLength (letters : List Char) : List Char → Nat
  | c :: _ => if letters.contains c then 1 else 0
  | [] => 0

def basedIntegerLength (isDigit : Char → Bool) (cs : List Char) : Nat :=
  let n := basedLength isDigit cs
  if n = 0 then 0 else n + 2 + suffixLength ['L', 'l'] (cs.drop n)

def decimalIntegerLength (cs : List Char) : Nat :=
  let n := digitsLength cs
  if n = 0 then 0 else n + suffixLength ['L', 'l', 'j', 'J'] (cs.drop n)

/-- The length of the integer at the front, zero when there is none. -/
def integerLength (cs : List Char) : Nat :=
  let based := match cs with
    | '0' :: b :: ds =>
      if b = 'x' ∨ b = 'X' then basedIntegerLength isHexDigit ds
      else if b = 'o' ∨ b = 'O' then basedIntegerLength isOctalDigit ds
      else if b = 'b' ∨ b = 'B' then basedIntegerLength (fun c => c == '0' || c == '1') ds
      else 0
    | _ => 0
  max based (decimalIntegerLength cs)

def exponentLength : List Char → Nat
  | e :: cs =>
    if e = 'e' ∨ e = 'E' then
      let sign := suffixLength ['+', '-'] cs
      let n := digitsLength (cs.drop sign)
      if n = 0 then 0 else n + sign + 1
    else 0
  | [] => 0

/-- The length of the fraction or exponential at the front, zero when there is none. -/
def floatLength (cs : List Char) : Nat :=
  let whole := digitsLength cs
  let body := match cs.drop whole with
    | '.' :: ds =>
      let part := digitsLength ds
      if whole = 0 ∧ part = 0 then 0
      else whole + 1 + part + exponentLength (ds.drop part)
    | ds =>
      let e := exponentLength ds
      if whole = 0 ∨ e = 0 then 0 else whole + e
  if body = 0 then 0 else body + suffixLength ['j', 'J'] (cs.drop body)

end Triage.Python.Parser
