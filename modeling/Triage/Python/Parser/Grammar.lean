import Triage.Python.Parser.Layout

/-!
# How the rules of the grammar call each other

A rule is written against a `Grammar`, which reads its parts, so that no rule is recursive by
itself. `Context` is what an enclosing rule says about the tokens that may follow a part.
-/

namespace Triage.Python.Parser

/-- The parts that rules are made of. -/
inductive Goal where
  /-- An expression whose operators bind at least as tightly as `level`. -/
  | expression (level : Nat)
  /-- An operand of comparisons whose operators bind at least as tightly as `level`. -/
  | operand (level : Nat)
  /-- The right side of an assignment, which may itself be an assignment. -/
  | rightSide
  /-- A type; `constrained` types have a bound after a colon. -/
  | typeOf (constrained : Bool)
  /-- A pattern of a `case`; `simple` ones have neither names for parts nor keywords. -/
  | pattern (simple : Bool)
  /-- A replacement field of a formatted string. -/
  | interpolation (kind : Kind)
  | statement

structure Context where
  /-- A line end may follow. -/
  newline : Bool := false
  /-- A closing bracket may follow. -/
  close : Bool := false
  /-- `if` begins a conditional expression here, and not a filter. -/
  conditional : Bool := true

abbrev Grammar := Goal → Context → Reader Items

/-- Inside brackets, where the bracket may close after the part. -/
def Context.bracketed : Context := { close := true }

/-- Between two fixed tokens of a rule. -/
def Context.inner : Context := {}

def Context.expect (c : Context) : Expect := { newline := c.newline, close := c.close }

/-- Step to the token after a part. -/
def settleAfter (c : Context) : Reader (Option Layout) := settle c.expect

def settleOperand : Reader Unit := settleToken { string := true }

/-- Whether a token at the front could begin an expression, when none of the words `stops` can. -/
def beginsExpression (stops : List String) (s : State) : Bool :=
  match s.rest with
  | [] => false
  | c :: cs =>
    (openingAt s.rest).isSome ||
    (isIdentifierStart c && !stops.contains s.word) ||
    c.isDigit || ['(', '[', '{', '-', '+', '~', '*'].contains c ||
    (c == '.' && match cs with
      | '.' :: '.' :: _ => true
      | d :: _ => d.isDigit
      | [] => false)

/-- `first`, then a `part` after each comma as long as `more` finds another one. -/
def commaSeparatedFrom (first : Items) (part : Reader Items) (after : Reader Unit)
    (more : State → Bool) (afterComma : Reader Unit) : Reader Items :=
  repeatUntil (fun (items : Items) => do
    after
    if (← get).startsWith "," then
      let comma ← symbol ","
      afterComma
      if more (← get) then
        let item ← part
        return .inl (items ++ comma ++ item)
      else return .inr (items ++ comma)
    else return .inr items) first

def commaSeparated (part : Reader Items) (after : Reader Unit) (more : State → Bool)
    (afterComma : Reader Unit) : Reader Items := do
  commaSeparatedFrom (← part) part after more afterComma

def atClose (s : State) : Bool :=
  match s.rest with
  | c :: _ => c == ')' || c == ']' || c == '\x7d'
  | [] => false

/-- Step to a token inside brackets, which may be the closing one. -/
def settleInside : Reader Unit := settleToken { close := true }

/-- Step to a token inside brackets that may close them or begin an operand. -/
def settleElement : Reader Unit := settleToken { close := true, string := true }

/-- `first` and the parts after it, between commas up to a closing bracket, which may follow a
comma. -/
def bracketedFrom (first : Items) (part : Reader Items) : Reader Items :=
  commaSeparatedFrom first part settleInside (!atClose ·) settleElement

def bracketedList (part : Reader Items) : Reader Items := do
  bracketedFrom (← part) part

/-- Whether a rule yielded a list with commas in it. -/
def hasComma (items : Items) : Bool := items.any (·.kind == .token ",")

/-- One expression, or a list of them, in which a comma may stand last; the words `stops` end the
list. -/
def expressions (g : Grammar) (stops : List String) (c : Context) : Reader Items := do
  let items ← commaSeparated (g (.expression 0) c) (do let _ ← settleAfter c)
    (beginsExpression stops) (do let _ ← settle { c.expect with string := true })
  return if hasComma items then wrap .expressionList items else items

def yieldExpression (g : Grammar) (c : Context) : Reader Items := do
  let first ← keyword "yield"
  let _ ← settle { c.expect with string := true }
  let s ← get
  if s.word = "from" then
    let source ← keyword "from"
    settleOperand
    return wrap .yield (first ++ source ++ (← g (.expression 0) c))
  else if beginsExpression [] s then
    return wrap .yield (first ++ (← expressions g [] c))
  else return wrap .yield first

mutual
/-- What can be assigned to: names, attributes, elements, and rows of these. -/
def isTarget : Tree → Bool
  | .node l cs =>
    match l.kind with
    | .identifier | .attribute | .subscript => true
    | .listSplat => isStarred cs
    | .tuple | .list | .parenthesizedExpression | .patternList | .expressionList =>
      areTargets cs
    | _ => false
def isStarred : List Tree → Bool
  | [] => true
  | t :: ts =>
    (!t.kind.isNamed || t.isExtra || t.kind == .identifier || t.kind == .attribute
      || t.kind == .subscript) && isStarred ts
def areTargets : List Tree → Bool
  | [] => true
  | t :: ts => (!t.kind.isNamed || t.isExtra || isTarget t) && areTargets ts
end

/-- Fail unless what a rule yielded can be assigned to. -/
def requireTarget (items : Items) : Reader Unit :=
  if areTargets items then pure () else fail

def target (g : Grammar) : Reader Items := do
  let items ← g (.operand 22) .inner
  requireTarget items
  return items

def targets (g : Grammar) : Reader Items := do
  let items ← commaSeparated (target g) (settleToken {}) (·.word != "in") settleOperand
  return if hasComma items then wrap .patternList items else items

end Triage.Python.Parser
