import Triage.Json.Value

/-!
# Reading JSON

`read?` accepts exactly one value with blanks around it. Nothing is checked but the grammar:
numbers may be of any size and strings may hold unpaired surrogates.
-/

namespace Triage.Json

def isBlank (c : Char) : Bool := c == ' ' || c == '\n' || c == '\t' || c == '\r'

def skipBlanks (cs : List Char) : List Char := cs.dropWhile isBlank

def hexValue? (c : Char) : Option Nat :=
  if '0' ≤ c ∧ c ≤ '9' then some (c.toNat - 48)
  else if 'a' ≤ c ∧ c ≤ 'f' then some (c.toNat - 87)
  else if 'A' ≤ c ∧ c ≤ 'F' then some (c.toNat - 55)
  else none

def hexCode? (a b c d : Char) : Option Nat := do
  return (((← hexValue? a) * 16 + (← hexValue? b)) * 16 + (← hexValue? c)) * 16 + (← hexValue? d)

/-- The code that a letter after a backslash stands for. -/
def shortEscape? (c : Char) : Option Nat :=
  match c with
  | '"' => some 34
  | '\\' => some 92
  | '/' => some 47
  | 'b' => some 8
  | 'f' => some 12
  | 'n' => some 10
  | 'r' => some 13
  | 't' => some 9
  | _ => none

/-- The codes of a string after its opening quote, and the text after its closing one. Escapes
give UTF-16 units, other characters themselves. -/
def codes? : List Char → Option (List Nat × List Char)
  | [] => none
  | '"' :: cs => some ([], cs)
  | '\\' :: 'u' :: a :: b :: c :: d :: cs => do
    let n ← hexCode? a b c d
    let (ns, rest) ← codes? cs
    return (n :: ns, rest)
  | '\\' :: c :: cs => do
    let n ← shortEscape? c
    let (ns, rest) ← codes? cs
    return (n :: ns, rest)
  | c :: cs => do
    if c.toNat < 32 then none
    let (ns, rest) ← codes? cs
    return (c.toNat :: ns, rest)

def isHighSurrogate (n : Nat) : Bool := 0xd800 ≤ n && n < 0xdc00

def isLowSurrogate (n : Nat) : Bool := 0xdc00 ≤ n && n < 0xe000

/-- The characters of codes; surrogates must come in pairs. -/
def assemble? : List Nat → Option (List Char)
  | [] => some []
  | n :: ns =>
    if isHighSurrogate n then
      match ns with
      | [] => none
      | m :: ms =>
        if isLowSurrogate m then
          (assemble? ms).map (Char.ofNat (0x10000 + (n - 0xd800) * 0x400 + (m - 0xdc00)) :: ·)
        else none
    else if isLowSurrogate n then none
    else (assemble? ns).map (Char.ofNat n :: ·)

/-- The string after an opening quote. -/
def string? (cs : List Char) : Option (Text × List Char) :=
  (codes? cs).map fun (ns, rest) => ((assemble? ns).map String.ofList, rest)

/-- The digits at the front, of which there must be one, and the text after them. -/
def digits? (cs : List Char) : Option (List Char × List Char) :=
  let ds := cs.takeWhile Char.isDigit
  if ds.isEmpty then none else some (ds, cs.dropWhile Char.isDigit)

/-- The whole part of a number; a zero stands alone. -/
def whole? (cs : List Char) : Option (List Char × List Char) :=
  match cs with
  | '0' :: rest =>
    match rest with
    | d :: _ => if d.isDigit then none else some (['0'], rest)
    | [] => some (['0'], rest)
  | _ => digits? cs

def fraction? (cs : List Char) : Option (List Char × List Char) :=
  match cs with
  | '.' :: rest => (digits? rest).map fun (ds, rest) => ('.' :: ds, rest)
  | _ => some ([], cs)

def exponentSign (cs : List Char) : List Char × List Char :=
  match cs with
  | '+' :: rest => (['+'], rest)
  | '-' :: rest => (['-'], rest)
  | _ => ([], cs)

def exponent? (cs : List Char) : Option (List Char × List Char) :=
  match cs with
  | e :: rest =>
    if e = 'e' ∨ e = 'E' then
      let (sign, rest) := exponentSign rest
      (digits? rest).map fun (ds, rest) => (e :: sign ++ ds, rest)
    else some ([], cs)
  | [] => some ([], [])

def number? (cs : List Char) : Option (List Char × List Char) := do
  let (sign, rest) := match cs with
    | '-' :: rest => (['-'], rest)
    | _ => ([], cs)
  let (whole, rest) ← whole? rest
  let (fraction, rest) ← fraction? rest
  let (exponent, rest) ← exponent? rest
  return (sign ++ whole ++ fraction ++ exponent, rest)

/-- The text after `word`, if the text begins with it. -/
def after? (word : String) (cs : List Char) : Option (List Char) :=
  if word.toList.isPrefixOf cs then some (cs.drop word.length) else none

mutual
/-- The value at the front, nested at most `fuel` deep. -/
def value? : Nat → List Char → Option (Value × List Char)
  | 0, _ => none
  | fuel + 1, cs =>
    match cs with
    | '"' :: rest => (string? rest).map fun (t, rest) => (.string t, rest)
    | '[' :: rest =>
      match skipBlanks rest with
      | ']' :: rest => some (.array [], rest)
      | rest => (items? fuel rest).map fun (vs, rest) => (.array vs, rest)
    | '\x7b' :: rest =>
      match skipBlanks rest with
      | '\x7d' :: rest => some (.object [], rest)
      | rest => (members? fuel rest).map fun (ms, rest) => (.object ms, rest)
    | 't' :: _ => (after? "true" cs).map fun rest => (.bool true, rest)
    | 'f' :: _ => (after? "false" cs).map fun rest => (.bool false, rest)
    | 'n' :: _ => (after? "null" cs).map fun rest => (.null, rest)
    | _ => (number? cs).map fun (ds, rest) => (.number (String.ofList ds), rest)
/-- The items of an array from the first one to the closing bracket. -/
def items? : Nat → List Char → Option (List Value × List Char)
  | 0, _ => none
  | fuel + 1, cs => do
    let (v, rest) ← value? fuel (skipBlanks cs)
    match skipBlanks rest with
    | ']' :: rest => return ([v], rest)
    | ',' :: rest => do
      let (vs, rest) ← items? fuel rest
      return (v :: vs, rest)
    | _ => none
/-- The members of an object from the first one to the closing brace. -/
def members? : Nat → List Char → Option (List (Text × Value) × List Char)
  | 0, _ => none
  | fuel + 1, cs => do
    match skipBlanks cs with
    | '"' :: rest =>
      let (name, rest) ← string? rest
      match skipBlanks rest with
      | ':' :: rest =>
        let (v, rest) ← value? fuel (skipBlanks rest)
        match skipBlanks rest with
        | '\x7d' :: rest => return ([(name, v)], rest)
        | ',' :: rest => do
          let (ms, rest) ← members? fuel rest
          return ((name, v) :: ms, rest)
        | _ => none
      | _ => none
    | _ => none
end

/-- The value that a text holds. -/
def read? (s : String) : Option Value := do
  let (v, rest) ← value? (s.length + 1) (skipBlanks s.toList)
  if (skipBlanks rest).isEmpty then some v else none

end Triage.Json
