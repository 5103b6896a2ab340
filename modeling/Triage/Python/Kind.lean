/-!
# Kinds of syntax nodes

The vocabulary of the concrete syntax of Python source: one constructor for each named kind of
node, and `token` for keywords and punctuation, which are known by their text.
-/

namespace Triage.Python

/-- What a node of a syntax tree is. -/
inductive Kind where
  | root | error | comment | lineContinuation
  | expressionStatement | assignment | augmentedAssignment | returnStatement | deleteStatement
  | raiseStatement | passStatement | breakStatement | continueStatement | globalStatement
  | nonlocalStatement | assertStatement | printStatement | chevron | execStatement
  | typeAliasStatement | importStatement | importFromStatement | futureImportStatement
  | importPrefix | relativeImport | dottedName | aliasedImport | wildcardImport
  | ifStatement | elifClause | elseClause | forStatement | whileStatement | tryStatement
  | exceptClause | exceptGroupClause | finallyClause | withStatement | withClause | withItem
  | functionDefinition | classDefinition | decoratedDefinition | decorator | block
  | matchStatement | caseClause | ifClause
  | parameters | lambdaParameters | typedParameter | defaultParameter | typedDefaultParameter
  | listSplatPattern | dictionarySplatPattern | tuplePattern | listPattern | keywordSeparator
  | positionalSeparator | typeParameter | patternList
  | argumentList | keywordArgument | listSplat | dictionarySplat | parenthesizedListSplat
  | expressionList
  | typeNode | splatType | genericType | unionType | constrainedType | memberType
  | casePattern | asPattern | asPatternTarget | unionPattern | dictPattern | keywordPattern
  | splatPattern | classPattern | complexPattern
  | identifier | attribute | subscript | slice | call | await | unaryOperator | binaryOperator
  | notOperator | booleanOperator | comparisonOperator | lambda | conditionalExpression
  | namedExpression | yield | ellipsis | integer | float | trueLiteral | falseLiteral
  | noneLiteral | string | stringStart | stringContent | stringEnd | interpolation
  | formatSpecifier | formatExpression | typeConversion | escapeSequence | escapeInterpolation
  | concatenatedString | list | listComprehension | set | setComprehension | dictionary
  | dictionaryComprehension | pair | tuple | parenthesizedExpression | generatorExpression
  | forInClause
  | token (text : String)
deriving DecidableEq, Repr, Inhabited

namespace Kind

/-- Keywords and punctuation are anonymous; every other kind is named. -/
def isNamed : Kind → Bool
  | token _ => false
  | _ => true

/-- Comments and joined lines may stand between any two tokens and belong to no rule. -/
def isExtra : Kind → Bool
  | comment | lineContinuation => true
  | _ => false

/-- The name under which a whole file's node is reported. -/
def rootName : String := "module"

end Kind

/-- The part that a child plays in its parent. -/
inductive Field where
  | function | arguments | object | attribute | name | newName | moduleName | definition
  | parameters | typeParameters | returnType | superclasses | body | condition | consequence
  | alternative | left | right | operator | operators | argument | value | subscript | key
  | typeHint | cause | subject | guard | code | expression | typeConversion
  | formatSpecifier
deriving DecidableEq, Repr, Inhabited

end Triage.Python
