import Triage.Python.Parser.State

/-!
# Layout

Line ends and indentation are tokens only where the grammar can use them. `settle` steps over
blanks to the next token, and reports a line end, a deeper line or a shallower line instead when
that is what the grammar is waiting for.
-/

namespace Triage.Python.Parser

/-- The tokens without text. -/
inductive Layout where
  | newline
  | indent (column : Nat)
  | dedent
deriving DecidableEq, Repr

/-- Which tokens the grammar could use next, as far as layout depends on it. -/
structure Expect where
  newline : Bool := false
  indent : Bool := false
  dedent : Bool := false
  /-- A closing bracket. -/
  close : Bool := false
  /-- The start of a string. -/
  string : Bool := false

/-- The delimiter that opens a string. -/
structure Opening where
  length : Nat
  quote : Char
  triple : Bool
  format : Bool
  raw : Bool
  bytes : Bool

/-- The string delimiter at the front of the text, with its letters. -/
def openingAt : List Char → Option Opening
  | [] => none
  | c :: cs =>
    if c = '`' then some ⟨1, c, false, false, false, false⟩
    else if c = '"' ∨ c = '\'' then
      match cs with
      | d :: e :: _ =>
        if d = c ∧ e = c then some ⟨3, c, true, false, false, false⟩
        else some ⟨1, c, false, false, false, false⟩
      | _ => some ⟨1, c, false, false, false, false⟩
    else if c = 'f' ∨ c = 'F' then
      (openingAt cs).map fun o => { o with length := o.length + 1, format := true }
    else if c = 'r' ∨ c = 'R' then
      (openingAt cs).map fun o => { o with length := o.length + 1, raw := true }
    else if c = 'b' ∨ c = 'B' then
      (openingAt cs).map fun o => { o with length := o.length + 1, bytes := true }
    else if c = 'u' ∨ c = 'U' then
      (openingAt cs).map fun o => { o with length := o.length + 1 }
    else none

/-- The blanks before the next token. -/
structure Margin where
  /-- The number of characters before the token. -/
  length : Nat := 0
  /-- Whether a line ended. -/
  lineEnd : Bool := false
  /-- The column of the token on its line. -/
  column : Nat := 0
  /-- The column of the first line that holds only a comment. -/
  comment : Option Nat := none
  /-- The text from the token on. -/
  rest : List Char := []
  /-- A comment at the end of a line of code, or a backslash that joins no lines. -/
  blocked : Bool := false

/-- Measure the blanks in front of a token. Whole-line comments belong to them when `comments`
holds; `inside` tells that the reader is within one. -/
def measure (comments : Bool) (m : Margin) (inside : Bool) : List Char → Margin
  | [] => { m with lineEnd := true, column := 0, rest := [] }
  | '\\' :: '\r' :: '\n' :: cs =>
    if inside then measure comments { m with length := m.length + 3, column := 0 } false cs
    else measure comments { m with length := m.length + 3 } false cs
  | '\\' :: '\n' :: cs =>
    if inside then measure comments { m with length := m.length + 2, column := 0 } false cs
    else measure comments { m with length := m.length + 2 } false cs
  | '\\' :: '\r' :: [] => { m with lineEnd := true, column := 0, rest := [] }
  | '\\' :: [] => { m with lineEnd := true, column := 0, rest := [] }
  | c :: cs =>
    if inside then
      if c = '\n' then measure comments { m with length := m.length + 1, column := 0 } false cs
      else measure comments { m with length := m.length + 1 } true cs
    else if c = '\n' then
      measure comments { m with length := m.length + 1, lineEnd := true, column := 0 } false cs
    else if c = ' ' then
      measure comments { m with length := m.length + 1, column := m.column + 1 } false cs
    else if c = '\t' then
      measure comments { m with length := m.length + 1, column := m.column + 8 } false cs
    else if c = '\r' ∨ c = '\x0c' then
      measure comments { m with length := m.length + 1, column := 0 } false cs
    else if c = '#' ∧ comments then
      if m.lineEnd then
        measure comments
          { m with length := m.length + 1, comment := some (m.comment.getD m.column) } true cs
      else { m with rest := c :: cs, blocked := true }
    else if c = '\\' then { m with rest := c :: cs, blocked := true }
    else { m with rest := c :: cs }

def margin (e : Expect) (s : State) : Margin :=
  measure (e.newline || e.indent || e.dedent) {} false s.rest

/-- The layout token at the current place, if the blanks ahead make one. A shallower line closes
its block also where the grammar does not wait for it, unless a line end or a closing bracket
could come or a string goes on; full-line comments at the block's own depth hold the end back. -/
def layoutAt (e : Expect) (s : State) : Option Layout :=
  let m := margin e s
  let column := s.columns.headD 0
  if m.blocked || !m.lineEnd then none
  else if e.indent && column < m.column then some (.indent m.column)
  else
    let stringNext := match m.rest with
      | c :: _ => c == '"' || c == '\'' || c == '`'
      | [] => false
    let closes := e.dedent || (!e.newline && !(e.string && stringNext) && !e.close)
    let commentsBelow := match m.comment with
      | none => true
      | some k => decide (k < column)
    if closes && decide (m.column < column) && !s.inFormat && commentsBelow then some .dedent
    else if e.newline then some .newline
    else none

def isSpace (c : Char) : Bool :=
  c == ' ' || c == '\t' || c == '\n' || c == '\r' || c == '\x0b' || c == '\x0c' ||
  c == '\ufeff' || c == '\u2060' || c == '\u200b'

/-- Keep the next `n` characters as an extra of kind `kind`. -/
def State.keepExtra (s : State) (kind : Kind) (n : Nat) : State :=
  let t := s.advance n
  { t with
    pending := s.pending ++
      [.node { kind := kind, start := s.offset, stop := t.offset, row := s.row } []] }

/-- The extra at the current place: its kind and length. -/
def extraAt : List Char → Option (Kind × Nat)
  | '#' :: cs => some (.comment, (cs.takeWhile (· != '\n')).length + 1)
  | '\\' :: '\n' :: _ => some (.lineContinuation, 2)
  | '\\' :: '\r' :: '\n' :: _ => some (.lineContinuation, 3)
  | _ => none

/-- Step over blanks, comments and joined lines, at most `n` of the latter, up to the next token.
Lines joined before a string belong to the string. -/
def settleWithin (e : Expect) : Nat → State → Option Layout × State
  | 0, s => (none, s)
  | n + 1, s =>
    match layoutAt e s with
    | some l => (some l, s)
    | none =>
      let m := margin e s
      if e.string && !m.blocked && m.comment.isNone && (openingAt m.rest).isSome then
        (none, s.advance m.length)
      else
        let t := s.advance (s.rest.takeWhile isSpace).length
        match extraAt t.rest with
        | some (kind, k) => settleWithin e n (t.keepExtra kind k)
        | none => (none, t)

def settle (e : Expect) : Reader (Option Layout) := do
  let s ← get
  let (l, t) := settleWithin e (s.size + 1) s
  set t
  return l

/-- Step to the next token, where no layout token can stand. -/
def settleToken (e : Expect) : Reader Unit := do
  match ← settle e with
  | none => pure ()
  | some _ => fail

/-- Note that a statement, a clause or a decorator starts here. -/
def startLine : Reader Unit := modify fun s => { s with statement := s.place }

def symbol (text : String) : Reader Items := do
  if (← get).startsWith text then lexeme (.token text) text.length else fail

def keyword (text : String) : Reader Items := do
  if (← get).word = text then lexeme (.token text) text.length else fail

def identifier : Reader Items := do
  let n := (identifierAt (← get).rest).length
  if n = 0 then fail else lexeme .identifier n

end Triage.Python.Parser
