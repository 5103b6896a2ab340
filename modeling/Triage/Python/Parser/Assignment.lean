import Triage.Python.Parser.Grammar

/-!
# Assignments

Plain, annotated and augmented assignments. The right side of one may be another.
-/

namespace Triage.Python.Parser

def augmentedOperators : List String :=
  ["//=", "**=", ">>=", "<<=", "+=", "-=", "*=", "/=", "@=", "%=", "&=", "^=", "|="]

/-- The rest of an assignment to `left`, or `left` alone when none follows. -/
def assignmentTo (g : Grammar) (c : Context) (left : Items) : Reader Items := do
  let _ ← settleAfter c
  let s ← get
  if s.startsWith "=" && !s.startsWith "==" then
    requireTarget left
    let equals ← symbol "="
    settleOperand
    let right ← g .rightSide c
    return wrap .assignment (fill .left left ++ equals ++ fill .right right)
  else if s.startsWith ":" && !s.startsWith ":=" then
    requireTarget left
    let colon ← symbol ":"
    settleOperand
    let type ← g (.typeOf true) c
    let _ ← settleAfter c
    let s ← get
    if s.startsWith "=" && !s.startsWith "==" then
      let equals ← symbol "="
      settleOperand
      let right ← g .rightSide c
      return wrap .assignment
        (fill .left left ++ colon ++ fill .typeHint type ++ equals ++ fill .right right)
    else return wrap .assignment (fill .left left ++ colon ++ fill .typeHint type)
  else
    match augmentedOperators.find? s.startsWith with
    | some op =>
      requireTarget left
      let sign ← symbol op
      settleOperand
      let right ← g .rightSide c
      return wrap .augmentedAssignment
        (fill .left left ++ fill .operator sign ++ fill .right right)
    | none => return left

/-- Expressions that may turn out to be the left side of an assignment. -/
def expressionsOrAssignment (g : Grammar) (c : Context) : Reader Items := do
  assignmentTo g c (← expressions g [] c)

/-- The right side of an assignment. -/
def rightSide (g : Grammar) (c : Context) : Reader Items := do
  if (← get).word = "yield" then yieldExpression g c else expressionsOrAssignment g c

end Triage.Python.Parser
