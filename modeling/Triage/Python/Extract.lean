import Triage.Event
import Triage.Python.Cursor
import Triage.Python.Literal
import Triage.Record
import Triage.RouteRule

/-!
# What is taken from a tree

Imports, calls, routes and events, each from one walk over the tree. Texts come from a source that
need not be the one the tree was read from; a node that does not fit it has an empty text.
-/

namespace Triage.Python

namespace Tree

mutual
/-- The expression within any number of parentheses. -/
def unparenthesized : Tree → Tree
  | .node l cs =>
    if l.kind = .parenthesizedExpression then (firstInside cs).getD (.node l cs) else .node l cs
/-- The first child within parentheses, without its own parentheses. -/
def firstInside : List Tree → Option Tree
  | [] => none
  | t :: ts =>
    if t.kind.isNamed && t.kind != .comment then some (unparenthesized t) else firstInside ts
end

def dottedText (source : String) (t : Tree) : String :=
  ".".intercalate ((t.namedChildren.filter (·.kind == .identifier)).map (·.text source))

def importedModule? (source : String) (t : Tree) : Option String :=
  match t.kind with
  | .dottedName => some (t.dottedText source)
  | .aliasedImport => (t.childBy? .name).map (·.dottedText source)
  | _ => none

/-- The module that names are imported from; empty when there are only dots. -/
def fromModule (source : String) (t : Tree) : String :=
  match t.childBy? .moduleName with
  | none => ""
  | some m =>
    if m.kind = .dottedName then m.dottedText source
    else ((m.namedChildren.find? (·.kind == .dottedName)).map (·.dottedText source)).getD ""

/-- The modules that a node imports. -/
def importedModules (source : String) (t : Tree) : List String :=
  match t.kind with
  | .importStatement => (t.childrenBy .name).filterMap (·.importedModule? source)
  | .importFromStatement => [t.fromModule source]
  | .futureImportStatement => ["__future__"]
  | _ => []

/-- The name of an expression that is a name or an attribute of a name. -/
def simpleName? (source : String) (t : Tree) : Option String :=
  let t := t.unparenthesized
  match t.kind with
  | .identifier => some (t.text source)
  | .attribute =>
    match t.childBy? .object, t.childBy? .attribute with
    | some object, some member =>
      let object := object.unparenthesized
      if object.kind = .identifier then
        some (object.text source ++ "." ++ member.text source)
      else none
    | _, _ => none
  | _ => none

def unknownCallee : String := "Unknown"

/-- The label of a callee in an event. -/
def calleeLabel (source : String) (t : Tree) : String :=
  let t := t.unparenthesized
  match t.kind with
  | .identifier => t.text source
  | .attribute =>
    match t.simpleName? source with
    | some name => name
    | none => ((t.childBy? .attribute).map (·.text source)).getD unknownCallee
  | _ => unknownCallee

/-- The label of what a call calls. -/
def callLabel (source : String) (t : Tree) : String :=
  ((t.childBy? .function).map (·.calleeLabel source)).getD unknownCallee

def isPositional (t : Tree) : Bool :=
  match t.kind with
  | .keywordArgument | .dictionarySplat | .comment => false
  | _ => true

/-- The positional arguments of a call; a bare generator is one. -/
def positionalArguments (t : Tree) : List Tree :=
  match t.childBy? .arguments with
  | none => []
  | some a =>
    if a.kind = .generatorExpression then [a] else a.namedChildren.filter isPositional

def decoratorExpression? (t : Tree) : Option Tree :=
  (t.namedChildren.find? (·.kind != .comment)).map unparenthesized

def decoratorExpressions (t : Tree) : List Tree :=
  (t.namedChildren.filter (·.kind == .decorator)).filterMap decoratorExpression?

/-- The value of a string without interpolation; the pieces of a row of strings are joined. -/
def stringValue? (source : String) (t : Tree) : Option String :=
  match t.kind with
  | .string => decodeLiteral (t.text source)
  | .concatenatedString =>
    let pieces := t.namedChildren.filter (·.kind != .comment)
    (pieces.mapM fun p =>
      if p.kind = .string then decodeLiteral (p.text source) else none).map String.join
  | _ => none

/-- The pattern that a decorator call registers as a route. -/
def routePattern? (source : String) (rule : RouteRule) (call : Tree) : Option String := do
  let function := (← call.childBy? .function).unparenthesized
  guard (function.kind = .attribute)
  let member ← function.childBy? .attribute
  guard (rule.accepts (member.text source))
  let first ← call.positionalArguments.head?
  first.stringValue? source

/-- The calls among the decorators of a function definition under `parent?`. -/
def decoratorCalls (parent? : Option Tree) : List Tree :=
  match parent? with
  | some parent =>
    if parent.kind = .decoratedDefinition then
      parent.decoratorExpressions.filter (·.kind == .call)
    else []
  | none => []

/-- The routes that the decorators of a function register. -/
def routesAt (source : String) (rule : RouteRule) (c : Cursor) : List RouteRecord :=
  match c.node.childBy? .name with
  | none => []
  | some name =>
    (decoratorCalls c.parent?).filterMap fun call =>
      (routePattern? source rule call).map fun route =>
        ⟨route, name.text source, c.node.line⟩

def attributeAccess? (source : String) (t : Tree) : Option AttributeAccess := do
  let object ← t.childBy? .object
  let member ← t.childBy? .attribute
  return ⟨object.text source ++ "." ++ member.text source, t.line⟩

/-- The decorator events of a decorated definition; there are none for classes. -/
def decoratorEvents (source file : String) (t : Tree) : List Event :=
  match t.childBy? .definition with
  | none => []
  | some definition =>
    if definition.kind ≠ .functionDefinition then []
    else
      match definition.childBy? .name with
      | none => []
      | some name =>
        (decoratorCalls (some t)).map fun call =>
          Event.decorator file definition.line (call.callLabel source) (name.text source)

/-- The events of a single node. -/
def eventsAt (source file : String) (t : Tree) : List Event :=
  match t.kind with
  | .call =>
    [Event.functionCall file t.line (t.callLabel source) t.positionalArguments.length]
  | .decoratedDefinition => t.decoratorEvents source file
  | .attribute =>
    match t.attributeAccess? source with
    | some a => [Event.attributeAccess file (some a.line) a.label]
    | none => []
  | _ => []

def callRecord? (source : String) (t : Tree) : Option CallRecord := do
  let name ← (← t.childBy? .function).simpleName? source
  return ⟨name, t.positionalArguments.length, t.line⟩

def nodes (t : Tree) : List Tree := t.walk.map (·.node)

/-- The modules that a file imports. -/
def dependencies (source : String) (t : Tree) : List String :=
  t.nodes.flatMap (·.importedModules source)

/-- The calls of names and of attributes of names. -/
def calls (source : String) (t : Tree) : List CallRecord :=
  (t.nodes.filter (·.kind == .call)).filterMap (·.callRecord? source)

def routes (source : String) (rule : RouteRule) (t : Tree) : List RouteRecord :=
  (t.walk.filter (·.node.kind == .functionDefinition)).flatMap (routesAt source rule)

/-- The stream of events of a file. -/
def events (source file : String) (t : Tree) : List Event :=
  t.nodes.flatMap (·.eventsAt source file)

def record (source file : String) (rule : RouteRule) (t : Tree) : FileRecord where
  path := file
  dependencies := t.dependencies source
  calls := t.calls source
  routes := t.routes source rule

end Tree

end Triage.Python
