import Triage.Python.Parser.Blame
import Triage.Python.Parser.Expression
import Triage.Python.Parser.Statement

/-!
# Reading a file

The rules of the grammar, tied together, and the tree of a whole file. A file that cannot be read
still has a tree, with an error node where the reader came to a halt.
-/

namespace Triage.Python.Parser

/-- The rule for each part, with `g` for the parts of it. -/
def rule (g : Grammar) : Grammar
  | .expression level, c => expression g level c
  | .operand level, c => operand g level c
  | .rightSide, c => rightSide g c
  | .typeOf constrained, c => typeExpression g constrained c
  | .pattern true, c => simplePattern g c
  | .pattern false, c => casePattern g c
  | .interpolation kind, _ =>
    interpolation g kind do
      if (← get).word = "yield" then yieldExpression g .bracketed
      else expressions g [] .bracketed
  | .statement, _ => statement g

/-- Parts nested to depth `n`. -/
def nested : Nat → Grammar
  | 0 => fun _ _ => fail
  | n + 1 => rule (nested n)

def statements (g : Grammar) : Reader Items :=
  repeatUntil (fun (items : Items) => do
    match ← settleStatement with
    | some _ => fail
    | none =>
      if (← get).rest.isEmpty then return .inr items
      else return .inl (items ++ (← g .statement .inner))) []

/-- The rest of the text from the first character that is not white space. -/
def State.skipSpace (s : State) : State :=
  s.advance (s.rest.takeWhile isSpace).length

end Parser

open Triage.Python.Parser

/-- The syntax tree of a file. -/
def parse (source : String) : Tree :=
  let text := source.toList
  let s : State := { rest := text, size := text.length }
  let start := s.skipSpace
  let root (children : List Tree) : Tree :=
    .node { kind := .root, start := start.offset, stop := source.utf8ByteSize, row := start.row }
      children
  match statements (nested (4 * s.size + 64)) s with
  | .ok (items, t) => root (items ++ t.pending)
  | .error f =>
    let row := blame text f
    root [.node { kind := .error, start := f.offset, stop := f.offset, row := row } []]

end Triage.Python
