import Triage.Python.Parser.State

/-!
# The row to blame

A bracket that stays open or a string without an end lets the reader run on, and it comes to a
halt far from the mistake. The row to blame is found by a second look at the bare text, which sees
only brackets, strings, comments and line ends.
-/

namespace Triage.Python.Parser

/-- What a character belongs to. -/
inductive Region where
  | code
  | comment
  /-- A string that began on `row`, up to its `quote` or to three of them. -/
  | string (quote : Char) (triple : Bool) (row : Nat)
deriving DecidableEq, Repr

/-- A bracket that waits for `close`. -/
structure OpenBracket where
  close : Char
  row : Nat
deriving DecidableEq, Repr

/-- What the bare text shows up to some place. -/
structure Outline where
  row : Nat := 0
  /-- The row of the first line end outside of brackets and strings. -/
  lineEnd : Option Nat := none
  /-- The brackets that stand open, innermost first. -/
  opened : List OpenBracket := []
  /-- The row of the first mistake that no later text can mend. -/
  flaw : Option Nat := none
deriving Repr

def closingOf? (c : Char) : Option Char :=
  if c = '(' then some ')'
  else if c = '[' then some ']'
  else if c = '\x7b' then some '\x7d'
  else none

/-- Whether `c` can stand in strings and comments only. -/
def isStray (c : Char) : Bool :=
  128 ≤ c.toNat && !isIdentifierContinue c

namespace Outline

/-- One more character of code, on this row. -/
def char (o : Outline) (c : Char) : Outline :=
  match closingOf? c with
  | some close => { o with opened := ⟨close, o.row⟩ :: o.opened }
  | none =>
    if c = ')' ∨ c = ']' ∨ c = '\x7d' then
      match o.opened with
      | b :: bs => if b.close = c then { o with opened := bs } else { o with flaw := some o.row }
      | [] => { o with flaw := some o.row }
    else if isStray c then { o with flaw := some o.row }
    else o

/-- The next row, where the line goes on. -/
def nextRow (o : Outline) : Outline := { o with row := o.row + 1 }

def endLine (o : Outline) : Outline :=
  if o.opened.isEmpty then { o.nextRow with lineEnd := o.lineEnd <|> some o.row } else o.nextRow

/-- Go through the text up to its end or to the first flaw. -/
def scan (o : Outline) (r : Region) : List Char → Outline
  | [] =>
    match r with
    | .string _ _ row => { o with flaw := some row }
    | _ => o
  | c :: cs =>
    if o.flaw.isSome then o
    else
      match r with
      | .comment => if c = '\n' then scan o.endLine .code cs else scan o .comment cs
      | .string quote triple row =>
        if c = '\\' then
          if cs.head? = some '\n' then scan o.nextRow r cs.tail else scan o r cs.tail
        else if c = '\n' then
          if triple then scan o.nextRow r cs else { o with flaw := some row }
        else if c = quote then
          if !triple then scan o .code cs
          else if [c, c].isPrefixOf cs then scan o .code (cs.drop 2)
          else scan o r cs
        else scan o r cs
      | .code =>
        if c = '\n' then scan o.endLine .code cs
        else if c = '#' then scan o .comment cs
        else if c = '"' ∨ c = '\'' then
          if [c, c].isPrefixOf cs then scan o (.string c true o.row) (cs.drop 2)
          else scan o (.string c false o.row) cs
        else if c = '\\' then
          let after := if cs.head? = some '\r' then cs.tail else cs
          if after.head? = some '\n' then scan o.nextRow .code after.tail
          else if after.isEmpty then o
          else { o with flaw := some o.row }
        else scan (o.char c) .code cs
termination_by cs => cs.length
decreasing_by all_goals grind

end Outline

/-- The text in front of the byte `offset`, and the text from there on. -/
def splitAtByte : Nat → List Char → List Char × List Char
  | _, [] => ([], [])
  | offset, c :: cs =>
    if c.utf8Size ≤ offset then
      let (front, rest) := splitAtByte (offset - c.utf8Size) cs
      (c :: front, rest)
    else ([], c :: cs)

/-- The row of the first line end that the reader ran over between the start of the statement and
`f`, or else the row of `f`. -/
def haltRow (text : List Char) (f : Fault) : Nat :=
  let (_, rest) := splitAtByte f.statement.offset text
  let (line, _) := splitAtByte (f.offset - f.statement.offset) rest
  (Outline.scan { row := f.statement.row } .code line).lineEnd.getD f.row

/-- The row to blame when the reader stopped at `f`. A flaw comes first. A bracket that is never
closed takes the blame for what comes after it. -/
def blame (text : List Char) (f : Fault) : Nat :=
  let whole := Outline.scan {} .code text
  match whole.flaw, whole.opened with
  | some row, _ => row
  | none, b :: _ => min b.row (haltRow text f)
  | none, [] => haltRow text f

end Triage.Python.Parser
