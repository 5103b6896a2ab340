import Triage.Python.Parser.Grammar

/-!
# Types

A type is an expression, or a form that only types have: a name with type parameters, what follows
such a name, a starred parameter, and a type with a bound.
-/

namespace Triage.Python.Parser

/-- The names that never take type parameters. -/
def plainNames : List String :=
  ["", "print", "exec", "async", "await", "match", "not", "lambda", "True", "False", "None"]

/-- Whether a name and an opening bracket stand at the front. -/
def genericAhead (c : Context) (s : State) : Bool :=
  !plainNames.contains s.word &&
  match (do let _ ← identifier; settleAfter c) s with
  | .ok (_, t) => t.startsWith "["
  | .error _ => false

def typeParameters (g : Grammar) : Reader Items := do
  let opening ← symbol "["
  settleOperand
  let items ← bracketedList (g (.typeOf true) .bracketed)
  settleInside
  return wrap .typeParameter (opening ++ items ++ (← symbol "]"))

/-- What a type begins with, and whether it is a form that only types have. -/
def typeStart (g : Grammar) (c : Context) : Reader Items := do
  let s ← get
  if s.startsWith "**" then
    let stars ← symbol "**"
    settleToken {}
    return wrap .splatType (stars ++ (← identifier))
  else if genericAhead c s then
    let name ← identifier
    let _ ← settleAfter c
    return wrap .genericType (name ++ (← typeParameters g))
  else g (.expression 0) c

/-- A type; `constrained` ones may have a bound. -/
def typeExpression (g : Grammar) (constrained : Bool) (c : Context) : Reader Items := do
  let items ← repeatUntil (fun (items : Items) => do
    let _ ← settleAfter c
    let s ← get
    if s.startsWith "|" && !s.startsWith "|=" then
      let bar ← symbol "|"
      settleOperand
      return .inl (wrap .unionType (items ++ bar ++ (← g (.typeOf false) c)))
    else if s.startsWith "." then
      let dot ← symbol "."
      settleToken {}
      return .inl (wrap .memberType (items ++ dot ++ (← identifier)))
    else if constrained && s.startsWith ":" && !s.startsWith ":=" then
      let colon ← symbol ":"
      settleOperand
      return .inl (wrap .constrainedType (items ++ colon ++ (← g (.typeOf true) c)))
    else return .inr items) (← typeStart g c)
  return wrap .typeNode items

end Triage.Python.Parser
