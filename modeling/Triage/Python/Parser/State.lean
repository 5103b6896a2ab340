import Triage.Python.Tree
import Triage.Python.Identifier

/-!
# The state of reading

A reader consumes characters from the front of the text and yields trees. Comments and joined
lines that stand before a token wait in the state until the token is taken, so that they become
siblings of that token. A failed reader reports how far it came.
-/

namespace Triage.Python.Parser

structure Place where
  offset : Nat := 0
  row : Nat := 0
deriving DecidableEq, Repr, Inhabited

/-- Where a reader could not go on, and where the statement, clause or decorator began. -/
structure Fault extends Place where
  statement : Place
deriving DecidableEq, Repr, Inhabited

structure State where
  /-- The text still to be read. -/
  rest : List Char
  /-- The length of the whole text, which bounds every repetition. -/
  size : Nat
  offset : Nat := 0
  row : Nat := 0
  /-- Comments and joined lines that wait for the next token. -/
  pending : List Tree := []
  /-- The columns of the open blocks, innermost first; the outermost level has column zero. -/
  columns : List Nat := []
  /-- Whether the last string delimiter that was read opened a formatted string. -/
  inFormat : Bool := false
  /-- The start of the latest statement, clause or decorator. -/
  statement : Place := {}
deriving Inhabited

abbrev Reader := StateT State (Except Fault)

/-- What a rule yields: the extras before its first token, then its nodes. -/
abbrev Items := List Tree

namespace State

def next (s : State) : State :=
  match s.rest with
  | [] => s
  | c :: cs =>
    { s with
      rest := cs, offset := s.offset + c.utf8Size,
      row := if c = '\n' then s.row + 1 else s.row }

/-- Step over up to `n` characters. -/
def advance : Nat → State → State
  | 0, s => s
  | n + 1, s => advance n s.next

/-- The identifier or keyword at the front. -/
def word (s : State) : String := String.ofList (identifierAt s.rest)

def startsWith (s : State) (text : String) : Bool := text.toList.isPrefixOf s.rest

def place (s : State) : Place := ⟨s.offset, s.row⟩

def fault (s : State) : Fault := ⟨s.place, s.statement⟩

end State

def fail {α : Type} : Reader α := fun s => .error s.fault

/-- Try `p`, and `q` from the same place when `p` fails; the failure that came further is
reported. -/
def either {α : Type} (p q : Reader α) : Reader α := fun s =>
  match p s with
  | .ok r => .ok r
  | .error f =>
    match q s with
    | .ok r => .ok r
    | .error g => .error (if f.offset ≤ g.offset then g else f)

/-- Run `p`, and step back to where it started if it fails. -/
def attempt {α : Type} (p : Reader α) : Reader (Option α) := fun s =>
  match p s with
  | .ok (a, t) => .ok (some a, t)
  | .error _ => .ok (none, s)

def iterate {σ α : Type} (step : σ → Reader (σ ⊕ α)) : Nat → σ → Reader α
  | 0, _ => fail
  | n + 1, x => do
    match ← step x with
    | .inl y => iterate step n y
    | .inr a => pure a

/-- Repeat `step` until it yields a result. A step that goes on consumes a character, so the
length of the text bounds the repetition. -/
def repeatUntil {σ α : Type} (step : σ → Reader (σ ⊕ α)) (x : σ) : Reader α := do
  iterate step ((← get).size + 2) x

/-- The node of the next `n` characters, after the extras that wait for it. -/
def lexeme (kind : Kind) (n : Nat) : Reader Items := do
  let s ← get
  let t := s.advance n
  set { t with pending := [] }
  return s.pending ++
    [.node { kind := kind, start := s.offset, stop := t.offset, row := s.row } []]

/-- A node of kind `kind` over `items`; extras in front stay in front of it. -/
def wrap (kind : Kind) (items : Items) : Items :=
  let extras := items.takeWhile Tree.isExtra
  match items.dropWhile Tree.isExtra with
  | [] => extras
  | t :: ts =>
    let last := (t :: ts).getLastD t
    extras ++
      [.node { kind := kind, start := t.label.start, stop := last.label.stop, row := t.label.row }
        (t :: ts)]

def emptyNode (kind : Kind) : Reader Items := do
  let s ← get
  return [.node { kind := kind, start := s.offset, stop := s.offset, row := s.row } []]

/-- Let all nodes of `items` but the extras fill `field`. -/
def fill (field : Field) (items : Items) : Items :=
  items.map fun
    | .node l cs => if l.kind.isExtra then .node l cs else .node { l with field := some field } cs

/-- The kind of the node that a rule yielded last. -/
def lastKind (items : Items) : Kind := (items.getLast?.map Tree.kind).getD .error

end Triage.Python.Parser
