import Triage.Python.Parser.Collections
import Triage.Python.Parser.Parameters
import Triage.Python.Parser.Strings

/-!
# Expressions

Operators are read by climbing: an operand takes in every operator that binds at least as tightly
as its level. The levels of operands are those of `binaryOperators`; the levels of expressions are
0 for conditionals, 1 for `as`, 2 for `or`, 3 for `and` and 4 for `not`.
-/

namespace Triage.Python.Parser

/-- The binary operators and how tightly they bind, longer ones before their beginnings. -/
def binaryOperators : List (String × Nat) := [
  ("**", 21), ("//", 19), ("<<", 17), (">>", 17), ("|", 14), ("&", 15), ("^", 16), ("+", 18),
  ("-", 18), ("*", 19), ("/", 19), ("%", 19), ("@", 19)]

/-- How tightly signs bind their operand; only powers bind tighter. -/
def powerLevel : Nat := 21

/-- The binary operator at the front. One with an equals sign belongs to an assignment. -/
def binaryAt (s : State) : Option (String × Nat) :=
  match binaryOperators.find? fun o => s.startsWith o.1 with
  | some o => if s.startsWith (o.1 ++ "=") then none else some o
  | none => none

/-- The comparisons written in punctuation, longer ones before their beginnings. -/
def comparisons : List String := ["<=", "<>", "<", "==", "!=", ">=", ">"]

/-- Take a comparison if one stands at the front. -/
def comparison? : Reader (Option Items) := do
  let s ← get
  match s.word with
  | "in" => return some (← keyword "in")
  | "is" => do
    let first ← keyword "is"
    settleOperand
    if (← get).word = "not" then
      return some (wrap (.token "is not") (first ++ (← keyword "not")))
    else return some first
  | "not" => do
    let first ← keyword "not"
    settleToken {}
    return some (wrap (.token "not in") (first ++ (← keyword "in")))
  | _ =>
    if s.startsWith "<<" || s.startsWith ">>" then return none
    else
      match comparisons.find? s.startsWith with
      | some op => return some (← symbol op)
      | none => return none

/-- The words that go on with an expression after a name. -/
def continuingWords : List String :=
  ["if", "else", "and", "or", "in", "is", "not", "as", "for", "async", "from"]

/-- Whether an operand of `await` follows the word at the front. -/
def awaits (c : Context) (s : State) : Bool :=
  match (do let _ ← identifier; settle { c.expect with string := true }) s with
  | .ok (none, t) => beginsExpression continuingWords t
  | _ => false

/-- A literal, a name, or something in brackets. -/
def atom (g : Grammar) (c : Context) : Reader Items := do
  let s ← get
  if (openingAt s.rest).isSome then strings g c
  else
    match s.rest with
    | [] => fail
    | d :: _ =>
      if d = '(' then parenthesized g
      else if d = '[' then listDisplay g
      else if d = '\x7b' then braceDisplay g
      else if s.startsWith "..." then lexeme .ellipsis 3
      else
        let whole := integerLength s.rest
        let real := floatLength s.rest
        if whole < real then lexeme .float real
        else if 0 < whole then lexeme .integer whole
        else
          match s.word with
          | "True" => lexeme .trueLiteral 4
          | "False" => lexeme .falseLiteral 5
          | "None" => lexeme .noneLiteral 4
          | _ => identifier

def trailer? (g : Grammar) (c : Context) (base : Items) : Reader (Option Items) := do
  let _ ← settleAfter c
  let s ← get
  if s.startsWith "." then
    let dot ← symbol "."
    settleToken {}
    let name ← identifier
    return some (wrap .attribute (fill .object base ++ dot ++ fill .attribute name))
  else if s.startsWith "(" then
    let arguments ← argumentList g true
    return some (wrap .call (fill .function base ++ fill .arguments arguments))
  else if s.startsWith "[" then
    return some (wrap .subscript (fill .value base ++ (← indices g)))
  else return none

/-- All attributes, calls and subscripts of `base`. -/
def trailers (g : Grammar) (c : Context) (base : Items) : Reader Items :=
  repeatUntil (fun (items : Items) => do
    match ← trailer? g c items with
    | some more => return .inl more
    | none => return .inr items) base

/-- A star before a name takes the name alone; before anything else it reaches to the first
attribute or subscript, which there must be. -/
def starred (g : Grammar) (c : Context) : Reader Items := do
  let star ← symbol "*"
  settleOperand
  let first ← atom g c
  if lastKind first == .identifier then return wrap .listSplat (star ++ first)
  else
    repeatUntil (fun (base : Items) => do
      match ← trailer? g c base with
      | some more =>
        if lastKind more == .attribute || lastKind more == .subscript then
          return .inr (wrap .listSplat (star ++ more))
        else return .inl more
      | none => fail) first

def unary (g : Grammar) (c : Context) : Reader Items := do
  let s ← get
  match ["-", "+", "~"].find? s.startsWith with
  | some sign =>
    let op ← symbol sign
    settleOperand
    let value ← g (.operand powerLevel) c
    return wrap .unaryOperator (fill .operator op ++ fill .argument value)
  | none =>
    if s.word = "await" && awaits c s then
      let first ← keyword "await"
      settleOperand
      return wrap .await (first ++ (← g (.operand powerLevel) c))
    else if s.startsWith "*" then trailers g c (← starred g c)
    else trailers g c (← atom g c)

/-- Powers bind to the right and all other operators to the left. -/
def operand (g : Grammar) (level : Nat) (c : Context) : Reader Items := do
  repeatUntil (fun (left : Items) => do
    let _ ← settleAfter c
    match binaryAt (← get) with
    | some (op, p) =>
      if level ≤ p then
        let sign ← symbol op
        settleOperand
        let right ← g (.operand (if p = powerLevel then p else p + 1)) c
        return .inl (wrap .binaryOperator
          (fill .left left ++ fill .operator sign ++ fill .right right))
      else return .inr left
    | none => return .inr left) (← unary g c)

def comparison (g : Grammar) (c : Context) : Reader Items := do
  let first ← g (.operand 14) c
  let (items, several) ← repeatUntil (fun (x : Items × Bool) => do
    let _ ← settleAfter c
    match ← comparison? with
    | some op =>
      settleOperand
      let right ← g (.operand 14) c
      return .inl (x.1 ++ fill .operators op ++ right, true)
    | none => return .inr x) (first, false)
  return if several then wrap .comparisonOperator items else items

def lambda (g : Grammar) (c : Context) : Reader Items := do
  let first ← keyword "lambda"
  settleToken {}
  let names ← lambdaParameters g
  settleToken {}
  let colon ← symbol ":"
  settleOperand
  let body ← g (.expression 0) c
  return wrap .lambda (first ++ fill .parameters names ++ colon ++ fill .body body)

/-- Whether a name that is given a value within an expression stands at the front. -/
def namedAhead (c : Context) (s : State) : Bool :=
  !(["", "not", "lambda", "True", "False", "None"].contains s.word) &&
  match (do let _ ← identifier; settleAfter c) s with
  | .ok (_, t) => t.startsWith ":="
  | .error _ => false

/-- What the operators of an expression connect. -/
def leading (g : Grammar) (c : Context) : Reader Items := do
  let s ← get
  if s.word = "not" then
    let op ← keyword "not"
    settleOperand
    return wrap .notOperator (op ++ fill .argument (← g (.expression 4) c))
  else if s.word = "lambda" then lambda g c
  else if namedAhead c s then
    let name ← identifier
    let _ ← settleAfter c
    let sign ← symbol ":="
    settleOperand
    let value ← g (.expression 2) c
    return wrap .namedExpression (fill .name name ++ sign ++ fill .value value)
  else comparison g c

/-- An expression whose operators bind at least as tightly as `level`. -/
def expression (g : Grammar) (level : Nat) (c : Context) : Reader Items := do
  repeatUntil (fun (left : Items) => do
    let _ ← settleAfter c
    match (← get).word with
    | "and" =>
      if level ≤ 3 then
        let op ← keyword "and"
        settleOperand
        let right ← g (.expression 4) c
        return .inl (wrap .booleanOperator
          (fill .left left ++ fill .operator op ++ fill .right right))
      else return .inr left
    | "or" =>
      if level ≤ 2 then
        let op ← keyword "or"
        settleOperand
        let right ← g (.expression 3) c
        return .inl (wrap .booleanOperator
          (fill .left left ++ fill .operator op ++ fill .right right))
      else return .inr left
    | "as" =>
      if level ≤ 1 then
        let op ← keyword "as"
        settleOperand
        let name ← g (.expression 2) c
        return .inl (wrap .asPattern
          (left ++ op ++ fill .newName (wrap .asPatternTarget name)))
      else return .inr left
    | "if" =>
      if level = 0 ∧ c.conditional then
        let first ← keyword "if"
        settleOperand
        let condition ← g (.expression 0) .inner
        settleToken {}
        let second ← keyword "else"
        settleOperand
        let other ← g (.expression 0) c
        return .inl (wrap .conditionalExpression (left ++ first ++ condition ++ second ++ other))
      else return .inr left
    | _ => return .inr left) (← leading g c)

end Triage.Python.Parser
