import Triage.Python.Parser.Assignment
import Triage.Python.Parser.Pattern

/-!
# Simple statements

The statements that fit on a line and share it between semicolons. `print`, `exec` and `type` are
names wherever they can be read as names.
-/

namespace Triage.Python.Parser

/-- At the end of a statement on its line. -/
def onLine : Context := { newline := true }

/-- A name in an import list, which may get another name. -/
def importedName (c : Context) : Reader Items := do
  let name ← dottedName c
  let _ ← settleAfter c
  if (← get).word = "as" then
    let word ← keyword "as"
    settleToken {}
    let newName ← identifier
    return fill .name (wrap .aliasedImport (fill .name name ++ word ++ fill .newName newName))
  else return fill .name name

def importList (c : Context) : Reader Items :=
  commaSeparated (importedName c) (do let _ ← settleAfter c) (·.word != "")
    (do let _ ← settleAfter c)

/-- An import list, which may stand in parentheses. -/
def importTail : Reader Items := do
  if (← get).startsWith "(" then
    let opening ← symbol "("
    settleToken {}
    let names ← importList .bracketed
    settleInside
    return opening ++ names ++ (← symbol ")")
  else importList onLine

def importStatement : Reader Items := do
  let first ← keyword "import"
  settleToken {}
  return wrap .importStatement (first ++ (← importList onLine))

/-- Leading dots and the name after them, if there is one. -/
def relativeImport : Reader Items := do
  let first ← symbol "."
  let dots ← repeatUntil (fun (items : Items) => do
    settleToken {}
    if (← get).startsWith "." then return .inl (items ++ (← symbol ".")) else return .inr items)
    first
  let dots := wrap .importPrefix dots
  let w := (← get).word
  if w = "" ∨ w = "import" then return wrap .relativeImport dots
  else return wrap .relativeImport (dots ++ (← dottedName .inner))

def fromStatement : Reader Items := do
  let first ← keyword "from"
  settleToken {}
  if (← get).word = "__future__" then
    let module ← keyword "__future__"
    settleToken {}
    let word ← keyword "import"
    settleToken {}
    return wrap .futureImportStatement (first ++ module ++ word ++ (← importTail))
  else
    let module ← if (← get).startsWith "." then relativeImport else dottedName .inner
    settleToken {}
    let word ← keyword "import"
    settleToken {}
    let names ← if (← get).startsWith "*" then lexeme .wildcardImport 1 else importTail
    return wrap .importFromStatement (first ++ fill .moduleName module ++ word ++ names)

/-- A keyword, and expressions after it if there are any. -/
def keywordAndExpressions (g : Grammar) (word : String) (kind : Kind) : Reader Items := do
  let first ← keyword word
  let _ ← settle { newline := true, string := true }
  if beginsExpression [] (← get) then return wrap kind (first ++ (← expressions g [] onLine))
  else return wrap kind first

def deleteStatement (g : Grammar) : Reader Items := do
  let first ← keyword "del"
  settleOperand
  return wrap .deleteStatement (first ++ (← expressions g [] onLine))

def raiseStatement (g : Grammar) : Reader Items := do
  let first ← keyword "raise"
  let _ ← settle { newline := true, string := true }
  let values ←
    if beginsExpression ["from"] (← get) then expressions g ["from"] onLine else pure []
  let _ ← settleAfter onLine
  if (← get).word = "from" then
    let word ← keyword "from"
    settleOperand
    let cause ← g (.expression 0) onLine
    return wrap .raiseStatement (first ++ values ++ word ++ fill .cause cause)
  else return wrap .raiseStatement (first ++ values)

def assertStatement (g : Grammar) : Reader Items := do
  let first ← keyword "assert"
  settleOperand
  let items ← commaSeparated (g (.expression 0) onLine) (do let _ ← settleAfter onLine)
    (fun _ => true) settleOperand
  return wrap .assertStatement (first ++ items)

def scopeStatement (word : String) (kind : Kind) : Reader Items := do
  let first ← keyword word
  settleToken {}
  let names ← commaSeparated identifier (do let _ ← settleAfter onLine) (fun _ => true)
    (settleToken {})
  return wrap kind (first ++ names)

/-- `part`, provided that the statement is over after it. -/
def complete (part : Reader Items) : Reader Items := do
  let items ← part
  match ← settleAfter onLine with
  | some .newline => return items
  | some _ => fail
  | none => if (← get).startsWith ";" then return items else fail

def expressionStatement (g : Grammar) : Reader Items := do
  if (← get).word = "yield" then return wrap .expressionStatement (← yieldExpression g onLine)
  else return wrap .expressionStatement (← expressionsOrAssignment g onLine)

/-- Whether the word at the front and a chevron begin a `print` statement. -/
def chevronAhead (s : State) : Bool :=
  match (do let _ ← identifier; settleAfter onLine) s with
  | .ok (_, t) => t.startsWith ">>" && !t.startsWith ">>="
  | .error _ => false

/-- A `print` that is no call. -/
def printStatement (g : Grammar) : Reader Items := do
  let first ← keyword "print"
  settleOperand
  let chevron ←
    if (← get).startsWith ">>" then do
      let sign ← symbol ">>"
      settleOperand
      pure (wrap .chevron (sign ++ (← g (.expression 0) onLine)))
    else g (.expression 0) onLine
  let items ← commaSeparatedFrom chevron (g (.expression 0) onLine)
    (do let _ ← settleAfter onLine) (beginsExpression [])
    (do let _ ← settle { newline := true, string := true })
  return wrap .printStatement (first ++ items)

/-- An `exec` that is no call. -/
def execStatement (g : Grammar) : Reader Items := do
  let first ← keyword "exec"
  settleOperand
  let code ← if (openingAt (← get).rest).isSome then string g else identifier
  let _ ← settleAfter onLine
  if (← get).word = "in" then
    let word ← keyword "in"
    settleOperand
    let spaces ← commaSeparated (g (.expression 0) onLine) (do let _ ← settleAfter onLine)
      (fun _ => true) settleOperand
    return wrap .execStatement (first ++ fill .code code ++ word ++ spaces)
  else return wrap .execStatement (first ++ fill .code code)

def typeAlias (g : Grammar) : Reader Items := do
  let first ← keyword "type"
  settleOperand
  let left ← g (.typeOf true) .inner
  settleToken {}
  let equals ← symbol "="
  settleOperand
  let right ← g (.typeOf true) onLine
  return wrap .typeAliasStatement (first ++ fill .left left ++ equals ++ fill .right right)

/-- A statement up to the semicolon or the line end after it. -/
def simpleStatement (g : Grammar) : Reader Items := do
  let s ← get
  match s.word with
  | "import" => complete importStatement
  | "from" => complete fromStatement
  | "return" => complete (keywordAndExpressions g "return" .returnStatement)
  | "del" => complete (deleteStatement g)
  | "raise" => complete (raiseStatement g)
  | "assert" => complete (assertStatement g)
  | "pass" => complete (do return wrap .passStatement (← keyword "pass"))
  | "break" => complete (do return wrap .breakStatement (← keyword "break"))
  | "continue" => complete (do return wrap .continueStatement (← keyword "continue"))
  | "global" => complete (scopeStatement "global" .globalStatement)
  | "nonlocal" => complete (scopeStatement "nonlocal" .nonlocalStatement)
  | "print" =>
    if chevronAhead s then complete (printStatement g)
    else either (complete (expressionStatement g)) (complete (printStatement g))
  | "exec" => either (complete (expressionStatement g)) (complete (execStatement g))
  | "type" => either (complete (typeAlias g)) (complete (expressionStatement g))
  | _ => complete (expressionStatement g)

def simpleStatements (g : Grammar) : Reader Items := do
  repeatUntil (fun (items : Items) => do
    match ← settleAfter onLine with
    | some .newline => return .inr items
    | some _ => fail
    | none => do
      let mark ← symbol ";"
      match ← settle { newline := true, string := true } with
      | some _ => return .inr (items ++ mark)
      | none => return .inl (items ++ mark ++ (← simpleStatement g))) (← simpleStatement g)

end Triage.Python.Parser
