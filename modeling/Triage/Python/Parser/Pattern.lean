import Triage.Python.Parser.Strings

/-!
# Patterns of `case` clauses

Names and dotted names in patterns are not expressions, so a pattern yields neither attributes nor
calls.
-/

namespace Triage.Python.Parser

def dottedName (c : Context) : Reader Items := do
  let first ← identifier
  let items ← repeatUntil (fun (items : Items) => do
    let _ ← settleAfter c
    if (← get).startsWith "." then
      let dot ← symbol "."
      settleToken {}
      return .inl (items ++ dot ++ (← identifier))
    else return .inr items) first
  return wrap .dottedName items

def number : Reader Items := do
  let s ← get
  let whole := integerLength s.rest
  let real := floatLength s.rest
  if whole < real then lexeme .float real
  else if 0 < whole then lexeme .integer whole
  else fail

/-- A number, which may have a sign, or a complex number. -/
def numberPattern (c : Context) : Reader Items := do
  let sign ← if (← get).startsWith "-" then symbol "-" else pure []
  settleToken {}
  let real ← number
  let _ ← settleAfter c
  match ["+", "-"].find? (← get).startsWith with
  | some op =>
    let middle ← symbol op
    settleToken {}
    return wrap .complexPattern (sign ++ real ++ middle ++ (← number))
  | none => return sign ++ real

def patternsWithin (part : Reader Items) (opening closing : String) : Reader Items := do
  let first ← symbol opening
  settleElement
  let items ← if atClose (← get) then pure [] else bracketedList part
  settleInside
  return first ++ items ++ (← symbol closing)

/-- One or two stars and a name. -/
def splatPattern : Reader Items := do
  let stars ← symbol (if (← get).startsWith "**" then "**" else "*")
  settleToken {}
  return wrap .splatPattern (stars ++ (← identifier))

/-- A name, or a class with the patterns of its arguments. -/
def namePattern (g : Grammar) (c : Context) : Reader Items := do
  let name ← dottedName c
  let _ ← settleAfter c
  if (← get).startsWith "(" then
    return wrap .classPattern (name ++ (← patternsWithin (g (.pattern false) .bracketed) "(" ")"))
  else return name

/-- A key and its pattern, or a starred name. -/
def entryPattern (g : Grammar) : Reader Items := do
  if (← get).startsWith "*" then splatPattern
  else
    let key ← g (.pattern true) .inner
    settleToken {}
    let colon ← symbol ":"
    settleOperand
    return fill .key key ++ colon ++ fill .value (← g (.pattern false) .bracketed)

/-- A pattern without alternatives. -/
def patternAtom (g : Grammar) (c : Context) : Reader Items := do
  let s ← get
  if (openingAt s.rest).isSome then strings g c
  else if s.startsWith "*" then splatPattern
  else if s.startsWith "[" then
    return wrap .listPattern (← patternsWithin (g (.pattern false) .bracketed) "[" "]")
  else if s.startsWith "(" then
    return wrap .tuplePattern (← patternsWithin (g (.pattern false) .bracketed) "(" ")")
  else if s.startsWith "\x7b" then
    return wrap .dictPattern (← patternsWithin (entryPattern g) "\x7b" "\x7d")
  else if s.startsWith "-" || 0 < integerLength s.rest || 0 < floatLength s.rest then
    numberPattern c
  else
    match s.word with
    | "True" => lexeme .trueLiteral 4
    | "False" => lexeme .falseLiteral 5
    | "None" => lexeme .noneLiteral 4
    | "_" => lexeme (.token "_") 1
    | _ => namePattern g c

/-- Alternatives between bars. -/
def simplePattern (g : Grammar) (c : Context) : Reader Items := do
  let first ← patternAtom g c
  let (items, several) ← repeatUntil (fun (x : Items × Bool) => do
    let _ ← settleAfter c
    if (← get).startsWith "|" then
      let bar ← symbol "|"
      settleOperand
      return .inl (x.1 ++ bar ++ (← patternAtom g c), true)
    else return .inr x) (first, false)
  return if several then wrap .unionPattern items else items

def keywordPatternAhead (c : Context) (s : State) : Bool :=
  !(["", "_", "True", "False", "None"].contains s.word) &&
  match (do let _ ← identifier; settleAfter c) s with
  | .ok (_, t) => t.startsWith "="
  | .error _ => false

/-- A pattern, with the names it gives. -/
def casePattern (g : Grammar) (c : Context) : Reader Items := do
  let first ←
    if keywordPatternAhead c (← get) then do
      let name ← identifier
      let _ ← settleAfter c
      let equals ← symbol "="
      settleOperand
      pure (wrap .keywordPattern (name ++ equals ++ (← g (.pattern true) c)))
    else g (.pattern true) c
  repeatUntil (fun (items : Items) => do
    let _ ← settleAfter c
    if (← get).word = "as" then
      let word ← keyword "as"
      settleToken {}
      return .inl (wrap .asPattern (wrap .casePattern items ++ word ++ (← identifier)))
    else return .inr (wrap .casePattern items)) first

end Triage.Python.Parser
