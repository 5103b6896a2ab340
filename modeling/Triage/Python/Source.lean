import Triage.Python.Cursor
import Triage.Python.Parser

/-!
# Accepting a file

A file is accepted when its tree holds no fault and no statement of the old language. The line of
a refusal is that of the first fault, or else of the first old statement.
-/

namespace Triage.Python

/-- Statements and clauses that the language no longer has. -/
def Tree.isLegacy (t : Tree) : Bool :=
  match t.kind with
  | .printStatement | .execStatement => true
  | .exceptClause => t.children.any (·.kind == .token ",")
  | _ => false

def Tree.refusedLine? (t : Tree) : Option Nat :=
  let nodes := t.walk.map (·.node)
  match nodes.find? (·.isFault) with
  | some fault => some fault.line
  | none => (nodes.find? (·.isLegacy)).map (·.line)

/-- The tree of a file, or the line on which it is refused. -/
def parse? (source : String) : Except Nat Tree :=
  let t := parse source
  match t.refusedLine? with
  | some line => .error line
  | none => .ok t

end Triage.Python
