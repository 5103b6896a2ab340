import Triage.Python.Parser.Grammar

/-!
# Parameters

The parameters of functions and lambdas. Their order is free: separators, defaults and starred
parameters may stand anywhere, any number of times.
-/

namespace Triage.Python.Parser

/-- A parameter with one or two stars, up to its type. -/
def starredParameter (g : Grammar) (stars : String) (kind : Kind) : Reader Items := do
  let first ← symbol stars
  settleOperand
  let name ← g (.operand 22) .bracketed
  match lastKind name with
  | .identifier | .attribute | .subscript => return wrap kind (first ++ name)
  | _ => fail

/-- Whether a bare star at the front separates parameters. -/
def separatorAhead (s : State) : Bool :=
  match (do let _ ← symbol "*"; settleInside) s with
  | .ok (_, t) => t.startsWith "," || t.startsWith ")" || t.startsWith ":"
  | .error _ => false

/-- What a parameter begins with: a name, a row of names, or stars and a name. -/
def parameterName (g : Grammar) : Reader Items := do
  let s ← get
  if s.startsWith "**" then starredParameter g "**" .dictionarySplatPattern
  else if s.startsWith "*" then starredParameter g "*" .listSplatPattern
  else if s.startsWith "(" then
    let items ← g (.operand 22) .bracketed
    if (lastKind items == .tuple || lastKind items == .parenthesizedExpression) && areTargets items
    then return items else fail
  else identifier

/-- A parameter; `typed` ones may have a type. -/
def parameter (g : Grammar) (typed : Bool) : Reader Items := do
  let s ← get
  if s.startsWith "/" then lexeme .positionalSeparator 1
  else if s.startsWith "*" && !s.startsWith "**" && separatorAhead s then
    lexeme .keywordSeparator 1
  else
    let name ← parameterName g
    settleInside
    let kind := lastKind name
    let s ← get
    if typed && s.startsWith ":" && kind != .tuple && kind != .parenthesizedExpression then
      let colon ← symbol ":"
      settleOperand
      let type ← g (.typeOf true) .bracketed
      settleInside
      if (← get).startsWith "=" && kind == .identifier then
        let equals ← symbol "="
        settleOperand
        let value ← g (.expression 0) .bracketed
        return wrap .typedDefaultParameter (fill .name name ++ colon ++ fill .typeHint type ++
          equals ++ fill .value value)
      else return wrap .typedParameter (name ++ colon ++ fill .typeHint type)
    else if s.startsWith "=" && kind != .listSplatPattern && kind != .dictionarySplatPattern then
      let equals ← symbol "="
      settleOperand
      let value ← g (.expression 0) (if typed then .bracketed else .inner)
      return wrap .defaultParameter (fill .name name ++ equals ++ fill .value value)
    else return name

def parameters (g : Grammar) : Reader Items := do
  let first ← symbol "("
  settleInside
  let items ← if atClose (← get) then pure [] else bracketedList (parameter g true)
  settleInside
  return wrap .parameters (first ++ items ++ (← symbol ")"))

def lambdaParameters (g : Grammar) : Reader Items := do
  if (← get).startsWith ":" then return []
  else
    let items ← commaSeparated (parameter g false) (settleToken {}) (!·.startsWith ":")
      (settleToken {})
    return wrap .lambdaParameters items

end Triage.Python.Parser
