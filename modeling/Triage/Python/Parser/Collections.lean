import Triage.Python.Parser.Grammar

/-!
# Brackets

Displays, comprehensions, argument lists, subscripts and everything else between brackets.
-/

namespace Triage.Python.Parser

/-- A starred value that ends where an element may end. -/
def starredElement (g : Grammar) : Reader Items := do
  let star ← symbol "*"
  settleOperand
  let value ← g (.expression 0) .bracketed
  settleInside
  let s ← get
  if s.startsWith "," || atClose s then return wrap .listSplat (star ++ value) else fail

/-- An element of a display: a value, starred or not. -/
def element (g : Grammar) : Reader Items := do
  if (← get).startsWith "*" then either (starredElement g) (g (.expression 0) .bracketed)
  else g (.expression 0) .bracketed

/-- An element of a display that may be a `yield`. -/
def elementOrYield (g : Grammar) : Reader Items := do
  if (← get).word = "yield" then yieldExpression g .bracketed else element g

def forAhead (s : State) : Bool := s.word == "for" || s.word == "async"

/-- One `for` of a comprehension. -/
def forClause (g : Grammar) : Reader Items := do
  let async ← if (← get).word = "async" then keyword "async" else pure []
  settleToken {}
  let first ← keyword "for"
  settleOperand
  let left ← targets g
  settleToken {}
  let middle ← keyword "in"
  settleOperand
  let right ← commaSeparated (g (.expression 0) { close := true, conditional := false })
    settleInside (beginsExpression ["for", "async", "if"]) settleElement
  return wrap .forInClause (async ++ first ++ fill .left left ++ middle ++ fill .right right)

def filterClause (g : Grammar) : Reader Items := do
  let first ← keyword "if"
  settleOperand
  return wrap .ifClause (first ++ (← g (.expression 0) { close := true, conditional := false }))

/-- The loops and filters of a comprehension, up to its closing bracket. -/
def clauses (g : Grammar) : Reader Items :=
  repeatUntil (fun (items : Items) => do
    settleInside
    let s ← get
    if forAhead s then return .inl (items ++ (← forClause g))
    else if s.word = "if" then return .inl (items ++ (← filterClause g))
    else return .inr items) []

/-- The rest of a comprehension with the given body. -/
def comprehension (g : Grammar) (kind : Kind) (opening body : Items) (closing : String) :
    Reader Items := do
  let loops ← clauses g
  return wrap kind (opening ++ fill .body body ++ loops ++ (← symbol closing))

/-- Whether a name and an equals sign stand at the front. -/
def keywordAhead (s : State) : Bool :=
  !(["", "not", "lambda", "True", "False", "None"].contains s.word) &&
  match (do let _ ← identifier; settleInside) s with
  | .ok (_, t) => t.startsWith "=" && !t.startsWith "=="
  | .error _ => false

def argument (g : Grammar) : Reader Items := do
  let s ← get
  if s.startsWith "**" then
    let stars ← symbol "**"
    settleOperand
    return wrap .dictionarySplat (stars ++ (← g (.expression 0) .bracketed))
  else if keywordAhead s then
    let name ← identifier
    settleInside
    let equals ← symbol "="
    settleOperand
    let value ← g (.expression 0) .bracketed
    return wrap .keywordArgument (fill .name name ++ equals ++ fill .value value)
  else element g

/-- The arguments of a call; `generator` allows a bare generator. -/
def argumentList (g : Grammar) (generator : Bool) : Reader Items := do
  let opening ← symbol "("
  settleElement
  let s ← get
  if s.startsWith ")" then return wrap .argumentList (opening ++ (← symbol ")"))
  else if s.startsWith "," then
    let comma ← symbol ","
    settleInside
    return wrap .argumentList (opening ++ comma ++ (← symbol ")"))
  else
    let first ← argument g
    settleInside
    let kind := lastKind first
    if generator && forAhead (← get) && kind != .keywordArgument && kind != .dictionarySplat then
      comprehension g .generatorExpression opening first ")"
    else
      let items ← bracketedFrom first (argument g)
      settleInside
      return wrap .argumentList (opening ++ items ++ (← symbol ")"))

/-- A tuple, a generator, or an expression in parentheses. -/
def parenthesized (g : Grammar) : Reader Items := do
  let opening ← symbol "("
  settleElement
  if (← get).startsWith ")" then return wrap .tuple (opening ++ (← symbol ")"))
  else
    let first ← elementOrYield g
    settleInside
    let s ← get
    if forAhead s && lastKind first != .yield then
      comprehension g .generatorExpression opening first ")"
    else if s.startsWith ")" then
      let kind := if lastKind first == .listSplat then .tuple else .parenthesizedExpression
      return wrap kind (opening ++ first ++ (← symbol ")"))
    else
      let items ← bracketedFrom first (elementOrYield g)
      settleInside
      return wrap .tuple (opening ++ items ++ (← symbol ")"))

/-- A list or a list comprehension. -/
def listDisplay (g : Grammar) : Reader Items := do
  let opening ← symbol "["
  settleElement
  if (← get).startsWith "]" then return wrap .list (opening ++ (← symbol "]"))
  else
    let first ← elementOrYield g
    settleInside
    if forAhead (← get) && lastKind first != .yield then
      comprehension g .listComprehension opening first "]"
    else
      let items ← bracketedFrom first (elementOrYield g)
      settleInside
      return wrap .list (opening ++ items ++ (← symbol "]"))

def pairOf (g : Grammar) (key : Items) : Reader Items := do
  let colon ← symbol ":"
  settleOperand
  let value ← g (.expression 0) .bracketed
  return wrap .pair (fill .key key ++ colon ++ fill .value value)

def entry (g : Grammar) : Reader Items := do
  if (← get).startsWith "**" then
    let stars ← symbol "**"
    settleOperand
    return wrap .dictionarySplat (stars ++ (← g (.expression 0) .bracketed))
  else
    let key ← g (.expression 0) .inner
    settleToken {}
    pairOf g key

/-- A dictionary, a set, or a comprehension of one; the first element decides which. -/
def braceDisplay (g : Grammar) : Reader Items := do
  let opening ← symbol "\x7b"
  settleElement
  let s ← get
  if s.startsWith "\x7d" then return wrap .dictionary (opening ++ (← symbol "\x7d"))
  else if s.startsWith "," then
    let comma ← symbol ","
    settleInside
    return wrap .dictionary (opening ++ comma ++ (← symbol "\x7d"))
  else if s.startsWith "**" then
    let items ← bracketedList (entry g)
    settleInside
    return wrap .dictionary (opening ++ items ++ (← symbol "\x7d"))
  else
    let first ← elementOrYield g
    settleInside
    let s ← get
    if s.startsWith ":" && lastKind first != .yield then
      let pair ← pairOf g first
      settleInside
      if forAhead (← get) then comprehension g .dictionaryComprehension opening pair "\x7d"
      else
        let items ← bracketedFrom pair (entry g)
        settleInside
        return wrap .dictionary (opening ++ items ++ (← symbol "\x7d"))
    else if forAhead s && lastKind first != .yield then
      comprehension g .setComprehension opening first "\x7d"
    else
      let items ← bracketedFrom first (elementOrYield g)
      settleInside
      return wrap .set (opening ++ items ++ (← symbol "\x7d"))

def bound (g : Grammar) : Reader Items := do
  settleElement
  let s ← get
  if s.startsWith ":" || s.startsWith "," || atClose s then return []
  else g (.expression 0) .bracketed

def index (g : Grammar) : Reader Items := do
  let start ← if (← get).startsWith ":" then pure [] else g (.expression 0) .bracketed
  settleInside
  if (← get).startsWith ":" then
    let colon ← symbol ":"
    let stop ← bound g
    settleInside
    if (← get).startsWith ":" then
      let second ← symbol ":"
      let step ← bound g
      return wrap .slice (start ++ colon ++ stop ++ second ++ step)
    else return wrap .slice (start ++ colon ++ stop)
  else return start

def indices (g : Grammar) : Reader Items := do
  let opening ← symbol "["
  settleOperand
  let items ← bracketedList (index g)
  settleInside
  return opening ++ fill .subscript items ++ (← symbol "]")

end Triage.Python.Parser
