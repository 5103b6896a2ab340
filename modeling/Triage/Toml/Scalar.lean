import Triage.Toml.Value

/-!
# Strings, numbers and dates in TOML

Each function reads what stands at the front of a text and gives the text after it.
-/

namespace Triage.Toml

open Number

def isBlank (c : Char) : Bool := c == ' ' || c == '\t'

def skipBlanks (cs : List Char) : List Char := cs.dropWhile isBlank

def isPlain (c : Char) : Bool := c == '\t' || (0x20 ≤ c.toNat && c.toNat != 0x7f)

/-- The text after a line end. -/
def newline? : List Char → Option (List Char)
  | '\n' :: cs => some cs
  | '\r' :: '\n' :: cs => some cs
  | _ => none

def skipComment (cs : List Char) : List Char :=
  match cs with
  | '#' :: rest => rest.dropWhile isPlain
  | _ => cs

/-- The next line, when nothing but a comment is left of this one. -/
def endOfLine? (cs : List Char) : Option (List Char) :=
  match skipComment (skipBlanks cs) with
  | [] => some []
  | rest => newline? rest

/-- The text without blanks, line ends and comments at its front. -/
def skipGaps (inComment : Bool) : List Char → List Char
  | [] => []
  | '\r' :: '\n' :: cs => skipGaps false cs
  | '\n' :: cs => skipGaps false cs
  | '#' :: cs => skipGaps true cs
  | c :: cs => if isBlank c || (inComment && isPlain c) then skipGaps inComment cs else c :: cs

def skipBlankLines : List Char → List Char
  | '\r' :: '\n' :: cs => skipBlankLines cs
  | c :: cs => if isBlank c || c == '\n' then skipBlankLines cs else c :: cs
  | [] => []

def digit? (base : Nat) (c : Char) : Option Nat :=
  let value :=
    if '0' ≤ c ∧ c ≤ '9' then some (c.toNat - '0'.toNat)
    else if 'a' ≤ c ∧ c ≤ 'f' then some (c.toNat - 'a'.toNat + 10)
    else if 'A' ≤ c ∧ c ≤ 'F' then some (c.toNat - 'A'.toNat + 10)
    else none
  value.filter (· < base)

def isDigit (base : Nat) (c : Char) : Bool := (digit? base c).isSome

def numberOf (base : Nat) (ds : List Char) : Nat :=
  ds.foldl (fun n d => n * base + (digit? base d).getD 0) 0

/-! ## Strings -/

/-- The character with a code of exactly `n` hexadecimal digits. -/
def code? (n : Nat) (cs : List Char) : Option (Char × List Char) :=
  let ds := cs.take n
  let code := numberOf 16 ds
  if ds.length = n ∧ ds.all (isDigit 16) ∧ code.isValidChar then
    some (Char.ofNat code, cs.drop n)
  else none

/-- The character of an escape after its backslash. -/
def escape? : List Char → Option (Char × List Char)
  | 'b' :: cs => some ('\x08', cs)
  | 't' :: cs => some ('\t', cs)
  | 'n' :: cs => some ('\n', cs)
  | 'f' :: cs => some ('\x0c', cs)
  | 'r' :: cs => some ('\r', cs)
  | '"' :: cs => some ('"', cs)
  | '\\' :: cs => some ('\\', cs)
  | 'u' :: cs => code? 4 cs
  | 'U' :: cs => code? 8 cs
  | _ => none

/-- The string after an opening quote, with escapes; every step takes one of `fuel`. -/
def basic? : Nat → List Char → Option (List Char × List Char)
  | 0, _ => none
  | fuel + 1, cs =>
    match cs with
    | [] => none
    | '"' :: rest => some ([], rest)
    | '\\' :: rest => do
      let (c, rest) ← escape? rest
      let (s, rest) ← basic? fuel rest
      return (c :: s, rest)
    | c :: rest =>
      if isPlain c then (basic? fuel rest).map fun (s, rest) => (c :: s, rest) else none

/-- The string after an opening apostrophe. -/
def literal? : List Char → Option (List Char × List Char)
  | [] => none
  | '\'' :: cs => some ([], cs)
  | c :: cs => if isPlain c then (literal? cs).map fun (s, rest) => (c :: s, rest) else none

/-- The end of a string of several lines: up to two of the quotes before the last three belong to
the string. -/
def closing? (quote : Char) (cs : List Char) : Option (List Char × List Char) :=
  let n := min 5 (cs.takeWhile (· == quote)).length
  if 3 ≤ n then some (List.replicate (n - 3) quote, cs.drop n) else none

/-- What is left after a backslash at the end of a line, with the blanks of the next lines. -/
def joinedLine? (cs : List Char) : Option (List Char) :=
  match skipBlanks cs with
  | '\n' :: rest => some (skipBlankLines rest)
  | '\r' :: '\n' :: rest => some (skipBlankLines rest)
  | _ => none

/-- A string of several lines, with escapes unless it is a literal; every step takes one of
`fuel`. -/
def lines? (quote : Char) : Nat → List Char → Option (List Char × List Char)
  | 0, _ => none
  | fuel + 1, cs =>
    match closing? quote cs with
    | some ends => some ends
    | none =>
      match cs with
      | [] => none
      | '\r' :: '\n' :: rest => (lines? quote fuel rest).map fun (s, rest) => ('\n' :: s, rest)
      | c :: rest =>
        if c = '\\' ∧ quote = '"' then
          match joinedLine? rest with
          | some rest => lines? quote fuel rest
          | none => do
            let (c, rest) ← escape? rest
            let (s, rest) ← lines? quote fuel rest
            return (c :: s, rest)
        else if isPlain c ∨ c = '\n' then
          (lines? quote fuel rest).map fun (s, rest) => (c :: s, rest)
        else none

def line? (cs : List Char) : Option (String × List Char) :=
  match cs with
  | '"' :: rest => (basic? cs.length rest).map fun (s, rest) => (String.ofList s, rest)
  | '\'' :: rest => (literal? rest).map fun (s, rest) => (String.ofList s, rest)
  | _ => none

/-- A string of several lines after its opening quotes; a line end right after them is dropped. -/
def text? (quote : Char) (cs : List Char) : Option (String × List Char) :=
  let body := (newline? cs).getD cs
  (lines? quote (body.length + 1) body).map fun (s, rest) => (String.ofList s, rest)

def string? (cs : List Char) : Option (String × List Char) :=
  match cs with
  | '"' :: '"' :: '"' :: rest => text? '"' rest
  | '\'' :: '\'' :: '\'' :: rest => text? '\'' rest
  | _ => line? cs

/-! ## Numbers -/

/-- More digits, where an underscore may stand between two of them. -/
def moreDigits (base : Nat) : List Char → List Char × List Char
  | [] => ([], [])
  | '_' :: c :: cs =>
    if isDigit base c then
      let (ds, rest) := moreDigits base cs
      (c :: ds, rest)
    else ([], '_' :: c :: cs)
  | c :: cs =>
    if isDigit base c then
      let (ds, rest) := moreDigits base cs
      (c :: ds, rest)
    else ([], c :: cs)

def digits? (base : Nat) (cs : List Char) : Option (List Char × List Char) :=
  match cs with
  | [] => none
  | c :: rest =>
    if isDigit base c then
      let (ds, rest) := moreDigits base rest
      some (c :: ds, rest)
    else none

def whole? (cs : List Char) : Option (List Char × List Char) :=
  match cs with
  | '0' :: rest => some (['0'], rest)
  | _ => digits? 10 cs

def maxInteger : Nat := twoTo 63 - 1

/-- The integer of a sign and a magnitude, if it has 64 bits. -/
def integerOf? (negative : Bool) (n : Nat) : Option Value :=
  if negative then (if n ≤ maxInteger + 1 then some (.integer (-n)) else none)
  else if n ≤ maxInteger then some (.integer n)
  else none

/-- An integer in another base, after its first zero. -/
def based? (cs : List Char) : Option (Value × List Char) :=
  let read (base : Nat) (rest : List Char) : Option (Value × List Char) := do
    let (ds, rest) ← digits? base rest
    return (← integerOf? false (numberOf base ds), rest)
  match cs with
  | 'x' :: rest => read 16 rest
  | 'o' :: rest => read 8 rest
  | 'b' :: rest => read 2 rest
  | _ => none

def fraction? (cs : List Char) : Option (List Char × List Char) :=
  match cs with
  | '.' :: rest => digits? 10 rest
  | _ => none

def exponent? (cs : List Char) : Option (Int × List Char) :=
  match cs with
  | e :: rest =>
    if e = 'e' ∨ e = 'E' then
      match rest with
      | '-' :: rest => (digits? 10 rest).map fun (ds, rest) => (-(numberOf 10 ds : Int), rest)
      | '+' :: rest => (digits? 10 rest).map fun (ds, rest) => ((numberOf 10 ds : Int), rest)
      | _ => (digits? 10 rest).map fun (ds, rest) => ((numberOf 10 ds : Int), rest)
    else none
  | [] => none

/-- A decimal number after its sign. -/
def decimal? (negative : Bool) (cs : List Char) : Option (Value × List Char) := do
  let (whole, rest) ← whole? cs
  let fraction := fraction? rest
  let rest := (fraction.map (·.2)).getD rest
  let exponent := exponent? rest
  let rest := (exponent.map (·.2)).getD rest
  if fraction.isNone && exponent.isNone then
    return (← integerOf? negative (numberOf 10 whole), rest)
  else
    let digits := (fraction.map (·.1)).getD []
    let shift := (exponent.map (·.1)).getD 0 - digits.length
    return (.float (← Double.ofDecimal? negative (numberOf 10 (whole ++ digits)) shift), rest)

def after? (word : String) (cs : List Char) : Option (List Char) :=
  if word.toList.isPrefixOf cs then some (cs.drop word.length) else none

/-- Infinity or NaN, after its sign. -/
def special? (negative : Bool) (cs : List Char) : Option (Value × List Char) :=
  match after? "inf" cs with
  | some rest => some (.float (.infinite negative), rest)
  | none => (after? "nan" cs).map fun rest => (.float (.nan negative), rest)

/-- The number at the front. -/
def number? (cs : List Char) : Option (Value × List Char) :=
  let signed (negative : Bool) (rest : List Char) : Option (Value × List Char) :=
    special? negative rest <|> decimal? negative rest
  match cs with
  | '-' :: rest => signed true rest
  | '+' :: rest => signed false rest
  | '0' :: rest => based? rest <|> signed false cs
  | _ => signed false cs

/-! ## Dates and times -/

/-- A number of exactly `n` digits from `low` to `high`. -/
def fixed? (n low high : Nat) (cs : List Char) : Option (Nat × List Char) :=
  let ds := cs.take n
  let value := numberOf 10 ds
  if ds.length = n ∧ ds.all (isDigit 10) ∧ low ≤ value ∧ value ≤ high then
    some (value, cs.drop n)
  else none

def afterChar? (c : Char) : List Char → Option (List Char)
  | d :: cs => if d = c then some cs else none
  | [] => none

def daysOf (year month : Nat) : Nat :=
  let leap := year % 4 = 0 ∧ (year % 100 ≠ 0 ∨ year % 400 = 0)
  if month = 2 then (if leap then 29 else 28)
  else if month = 4 ∨ month = 6 ∨ month = 9 ∨ month = 11 then 30
  else 31

/-- The text after a date. -/
def date? (cs : List Char) : Option (List Char) := do
  let (year, rest) ← fixed? 4 0 9999 cs
  let (month, rest) ← fixed? 2 1 12 (← afterChar? '-' rest)
  let (_, rest) ← fixed? 2 1 (daysOf year month) (← afterChar? '-' rest)
  return rest

def time? (cs : List Char) : Option (List Char) := do
  let (_, rest) ← fixed? 2 0 23 cs
  let (_, rest) ← fixed? 2 0 59 (← afterChar? ':' rest)
  let (_, rest) ← fixed? 2 0 60 (← afterChar? ':' rest)
  match rest with
  | '.' :: more =>
    let after := more.dropWhile Char.isDigit
    return if after.length < more.length then after else rest
  | _ => return rest

/-- The text after a time zone, which may be missing. -/
def zone (cs : List Char) : List Char :=
  let shift (rest : List Char) : Option (List Char) := do
    let (_, rest) ← fixed? 2 0 23 rest
    let (_, rest) ← fixed? 2 0 59 (← afterChar? ':' rest)
    return rest
  match cs with
  | 'Z' :: rest => rest
  | 'z' :: rest => rest
  | '+' :: rest => (shift rest).getD cs
  | '-' :: rest => (shift rest).getD cs
  | _ => cs

/-- The time after a date, which may be missing. -/
def timeAfterDate (cs : List Char) : List Char :=
  match cs with
  | c :: rest =>
    if c = 'T' ∨ c = 't' ∨ c = ' ' then ((time? rest).map zone).getD cs else cs
  | [] => []

/-- The date or time at the front. -/
def moment? (cs : List Char) : Option (Value × List Char) :=
  match date? cs with
  | some rest => some (.moment, timeAfterDate rest)
  | none => (time? cs).map fun rest => (.moment, rest)

end Triage.Toml
