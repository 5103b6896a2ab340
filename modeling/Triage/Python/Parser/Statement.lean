import Triage.Python.Parser.SimpleStatement
import Triage.Python.Parser.Collections
import Triage.Python.Parser.Parameters
import Triage.Python.Parser.TypeExpression

/-!
# Compound statements

A suite is an indented block, the rest of the line, or nothing at all. Indentation need not match:
a block ends at the first line that is shallower.
-/

namespace Triage.Python.Parser

/-- Step to the start of a statement, or to the end of the block it would stand in. -/
def settleStatement : Reader (Option Layout) := do
  let l ← settle { dedent := !(← get).columns.isEmpty, string := true }
  startLine
  return l

/-- Open a block at `column` and read `part` until the block ends. -/
def blockOf (column : Nat) (after : Reader (Option Layout)) (part : Reader Items) :
    Reader Items := do
  modify fun s => { s with columns := column :: s.columns }
  repeatUntil (fun (items : Items) => do
    match ← after with
    | some .dedent =>
      modify fun s => { s with columns := s.columns.tail }
      return .inr items
    | some _ => fail
    | none => return .inl (items ++ (← part))) []

/-- What follows the colon of a compound statement. -/
def suite (g : Grammar) : Reader Items := do
  match ← settle { newline := true, indent := true, string := true } with
  | some (.indent column) =>
    let items ← blockOf column settleStatement (g .statement .inner)
    return wrap .block items
  | some _ => emptyNode .block
  | none => return wrap .block (← simpleStatements g)

def colonSuite (g : Grammar) : Reader Items := do
  settleToken {}
  let colon ← symbol ":"
  return colon ++ fill .body (← suite g)

/-- A clause of a keyword and a suite, if `word` comes next. -/
def plainClause (g : Grammar) (word : String) (kind : Kind) : Reader Items := do
  match ← settleStatement with
  | some _ => return []
  | none =>
    if (← get).word = word then return wrap kind ((← keyword word) ++ (← colonSuite g))
    else return []

def elseClause (g : Grammar) : Reader Items := do
  return fill .alternative (← plainClause g "else" .elseClause)

def conditionClause (g : Grammar) (word : String) : Reader Items := do
  let first ← keyword word
  settleOperand
  let condition ← g (.expression 0) .inner
  return first ++ fill .condition condition ++ (← colonSuite g)

def ifStatement (g : Grammar) : Reader Items := do
  let first ← conditionClause g "if"
  let items ← repeatUntil (fun (items : Items) => do
    match ← settleStatement with
    | some _ => return .inr items
    | none =>
      if (← get).word = "elif" then
        return .inl (items ++ fill .alternative (wrap .elifClause (← conditionClause g "elif")))
      else return .inr items) first
  return wrap .ifStatement (items ++ (← elseClause g))

def whileStatement (g : Grammar) : Reader Items := do
  let first ← conditionClause g "while"
  return wrap .whileStatement (first ++ (← elseClause g))

/-- The word `async`, if it stands before a statement that can have it. -/
def asyncWord : Reader Items := do
  if (← get).word = "async" then
    let word ← keyword "async"
    settleToken {}
    return word
  else return []

def forStatement (g : Grammar) : Reader Items := do
  let async ← asyncWord
  let first ← keyword "for"
  settleOperand
  let left ← targets g
  settleToken {}
  let word ← keyword "in"
  settleOperand
  let right ← expressions g [] .inner
  let body ← colonSuite g
  return wrap .forStatement
    (async ++ first ++ fill .left left ++ word ++ fill .right right ++ body ++ (← elseClause g))

def withStatement (g : Grammar) : Reader Items := do
  let async ← asyncWord
  let first ← keyword "with"
  settleOperand
  let items ← commaSeparated (do return wrap .withItem (← g (.expression 0) .inner))
    (settleToken {}) (beginsExpression []) settleOperand
  return wrap .withStatement (async ++ first ++ wrap .withClause items ++ (← colonSuite g))

/-- A handler; the old form has a comma before the name of the exception. -/
def exceptClause (g : Grammar) : Reader Items := do
  let first ← keyword "except"
  settleOperand
  if (← get).startsWith ":" then return wrap .exceptClause (first ++ (← colonSuite g))
  else
    let value ← g (.expression 0) .inner
    settleToken {}
    if (← get).startsWith "," then
      let comma ← symbol ","
      settleOperand
      let name ← g (.expression 0) .inner
      return wrap .exceptClause
        (first ++ fill .value value ++ comma ++ fill .newName name ++ (← colonSuite g))
    else return wrap .exceptClause (first ++ fill .value value ++ (← colonSuite g))

def exceptGroupClause (g : Grammar) : Reader Items := do
  let first ← symbol "except*"
  settleOperand
  let value ← g (.expression 0) .inner
  return wrap .exceptGroupClause (first ++ value ++ (← colonSuite g))

/-- Handlers as long as `ahead` finds one. -/
def handlers (ahead : State → Bool) (part : Reader Items) : Reader Items :=
  repeatUntil (fun (items : Items) => do
    match ← settleStatement with
    | some _ => return .inr items
    | none => if ahead (← get) then return .inl (items ++ (← part)) else return .inr items) []

def tryStatement (g : Grammar) : Reader Items := do
  let first ← keyword "try"
  let body ← colonSuite g
  let _ ← settleStatement
  let items ←
    if (← get).startsWith "except*" then handlers (·.startsWith "except*") (exceptGroupClause g)
    else handlers (·.word == "except") (exceptClause g)
  let other ← if items.isEmpty then pure [] else elseClause g
  let last ← plainClause g "finally" .finallyClause
  if items.isEmpty && last.isEmpty then fail
  else return wrap .tryStatement (first ++ body ++ items ++ other ++ last)

def optionalTypeParameters (g : Grammar) : Reader Items := do
  settleToken {}
  if (← get).startsWith "[" then return fill .typeParameters (← typeParameters g) else return []

def functionDefinition (g : Grammar) : Reader Items := do
  let async ← asyncWord
  let first ← keyword "def"
  settleToken {}
  let name ← identifier
  let types ← optionalTypeParameters g
  settleToken {}
  let names ← parameters g
  settleToken {}
  let result ←
    if (← get).startsWith "->" then do
      let arrow ← symbol "->"
      settleOperand
      pure (arrow ++ fill .returnType (← g (.typeOf false) .inner))
    else pure []
  return wrap .functionDefinition (async ++ first ++ fill .name name ++ types ++
    fill .parameters names ++ result ++ (← colonSuite g))

def classDefinition (g : Grammar) : Reader Items := do
  let first ← keyword "class"
  settleToken {}
  let name ← identifier
  let types ← optionalTypeParameters g
  settleToken {}
  let bases ← if (← get).startsWith "(" then argumentList g false else pure []
  return wrap .classDefinition (first ++ fill .name name ++ types ++ fill .superclasses bases ++
    (← colonSuite g))

/-- A decorator up to the end of its line. -/
def decorator (g : Grammar) : Reader Items := do
  let sign ← symbol "@"
  settleOperand
  let value ← g (.expression 0) onLine
  match ← settleAfter onLine with
  | some .newline => return wrap .decorator (sign ++ value)
  | _ => fail

def decoratedDefinition (g : Grammar) : Reader Items := do
  let decorators ← repeatUntil (fun (items : Items) => do
    settleToken {}
    startLine
    if (← get).startsWith "@" then return .inl (items ++ (← decorator g))
    else return .inr items) (← decorator g)
  let definition ←
    if (← get).word = "class" then classDefinition g else functionDefinition g
  return wrap .decoratedDefinition (decorators ++ fill .definition definition)

def caseClause (g : Grammar) : Reader Items := do
  startLine
  let first ← keyword "case"
  settleOperand
  let patterns ← commaSeparated (g (.pattern false) .inner) (settleToken {})
    (fun s => s.word != "if" && !s.startsWith ":") settleOperand
  settleToken {}
  let guard ←
    if (← get).word = "if" then do
      let word ← keyword "if"
      settleOperand
      pure (fill .guard (wrap .ifClause (word ++ (← g (.expression 0) .inner))))
    else pure []
  return wrap .caseClause (first ++ patterns ++ guard ++ (← colonSuite g))

def matchStatement (g : Grammar) : Reader Items := do
  let first ← keyword "match"
  settleOperand
  let subjects ← commaSeparated (g (.expression 0) .inner) (settleToken {})
    (beginsExpression []) settleOperand
  settleToken {}
  let colon ← symbol ":"
  let body ←
    match ← settle { newline := true, indent := true } with
    | some (.indent column) => do
      let items ← blockOf column (settle { dedent := true }) (caseClause g)
      pure (wrap .block items)
    | some _ => emptyNode .block
    | none => fail
  return wrap .matchStatement (first ++ fill .subject subjects ++ colon ++ fill .body body)

def wordAfterAsync (s : State) : String :=
  match (do let _ ← keyword "async"; settleToken {}) s with
  | .ok (_, t) => t.word
  | .error _ => ""

/-- A statement, or several that share a line. -/
def statement (g : Grammar) : Reader Items := do
  let s ← get
  match s.word with
  | "if" => ifStatement g
  | "for" => forStatement g
  | "while" => whileStatement g
  | "try" => tryStatement g
  | "with" => withStatement g
  | "def" => functionDefinition g
  | "class" => classDefinition g
  | "async" =>
    match wordAfterAsync s with
    | "for" => forStatement g
    | "with" => withStatement g
    | "def" => functionDefinition g
    | _ => simpleStatements g
  | "match" => either (simpleStatements g) (matchStatement g)
  | _ => if s.startsWith "@" then decoratedDefinition g else simpleStatements g

end Triage.Python.Parser
