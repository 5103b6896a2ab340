import Triage.Toml.Scalar

/-!
# Reading TOML

A document is a list of lines: headers, members of the table under the last header, and lines
that mean nothing. Brackets and keys have a limit to their depth.
-/

namespace Triage.Toml

/-- A key has fewer parts than this, and fewer brackets are open at a time. -/
def depthLimit : Nat := 80

def isKeyChar (c : Char) : Bool := c.isAlphanum || c == '_' || c == '-'

/-- The part of a key at the front. -/
def keyPart? (cs : List Char) : Option (String × List Char) :=
  match cs with
  | '"' :: _ => line? cs
  | '\'' :: _ => line? cs
  | _ =>
    let name := cs.takeWhile isKeyChar
    if name.isEmpty then none else some (String.ofList name, cs.dropWhile isKeyChar)

def keyParts? : Nat → List Char → Option (List String × List Char)
  | 0, _ => none
  | fuel + 1, cs => do
    let (part, rest) ← keyPart? (skipBlanks cs)
    match skipBlanks rest with
    | '.' :: rest => do
      let (parts, rest) ← keyParts? fuel rest
      return (part :: parts, rest)
    | rest => return ([part], rest)

/-- The key at the front: the path to a table and a name in it. -/
def key? (cs : List Char) : Option ((List String × String) × List Char) := do
  let (parts, rest) ← keyParts? (depthLimit - 1) cs
  return ((parts.dropLast, ← parts.getLast?), rest)

mutual
/-- The value at the front, with at most `depth` brackets open at a time; every step takes one of
`fuel`. -/
def value? : Nat → Nat → List Char → Option (Value × List Char)
  | 0, _, _ => none
  | fuel + 1, depth, cs =>
    match cs with
    | '"' :: _ => (string? cs).map fun (s, rest) => (.string s, rest)
    | '\'' :: _ => (string? cs).map fun (s, rest) => (.string s, rest)
    | 't' :: _ => (after? "true" cs).map fun rest => (.boolean true, rest)
    | 'f' :: _ => (after? "false" cs).map fun rest => (.boolean false, rest)
    | '[' :: rest =>
      if depth = 0 then none
      else (items? fuel (depth - 1) rest).map fun (vs, rest) => (.array vs, rest)
    | '\x7b' :: rest =>
      if depth = 0 then none
      else
        match skipBlanks rest with
        | '\x7d' :: rest => some (.table .braces [], rest)
        | rest =>
          (members? fuel (depth - 1) [] rest).map fun (ms, rest) => (.table .braces ms, rest)
    | _ => moment? cs <|> number? cs
/-- The items of an array up to the closing bracket. -/
def items? : Nat → Nat → List Char → Option (List Value × List Char)
  | 0, _, _ => none
  | fuel + 1, depth, cs =>
    match skipGaps false cs with
    | ']' :: rest => some ([], rest)
    | rest => do
      let (v, rest) ← value? fuel depth rest
      match skipGaps false rest with
      | ']' :: rest => return ([v], rest)
      | ',' :: rest => do
        let (vs, rest) ← items? fuel depth rest
        return (v :: vs, rest)
      | _ => none
/-- The members of a table in braces up to the closing one, after the members `ms`. -/
def members? : Nat → Nat → Members → List Char → Option (Members × List Char)
  | 0, _, _, _ => none
  | fuel + 1, depth, ms, cs => do
    let ((path, name), rest) ← key? cs
    let rest ← afterChar? '=' rest
    let (v, rest) ← value? fuel depth (skipBlanks rest)
    let ms ← ms.addDotted? path name v .braces
    match skipBlanks rest with
    | '\x7d' :: rest => return (ms, rest)
    | ',' :: rest => members? fuel depth ms rest
    | _ => none
end

/-- What the lines so far come to. -/
structure Document where
  root : Members := []
  /-- The last header. -/
  header : List String := []
deriving Inhabited

namespace Document

def openTable? (d : Document) (cs : List Char) : Option (Document × List Char) := do
  let ((path, name), rest) ← key? cs
  let rest ← endOfLine? (← afterChar? ']' rest)
  return (⟨← d.root.openTable? path name, path ++ [name]⟩, rest)

/-- The document after a header of several tables, whose text begins behind the brackets. -/
def openElement? (d : Document) (cs : List Char) : Option (Document × List Char) := do
  let ((path, name), rest) ← key? cs
  let rest ← endOfLine? (← afterChar? ']' (← afterChar? ']' rest))
  return (⟨← d.root.openElement? path name, path ++ [name]⟩, rest)

def addMember? (d : Document) (cs : List Char) : Option (Document × List Char) := do
  let ((path, name), rest) ← key? cs
  let rest ← afterChar? '=' rest
  let (v, rest) ← value? (2 * rest.length + 2) (depthLimit - 1) (skipBlanks rest)
  return ({ d with root := ← d.root.addUnder? d.header path name v }, ← endOfLine? rest)

def line? (d : Document) (cs : List Char) : Option (Document × List Char) :=
  match skipBlanks cs with
  | [] => some (d, [])
  | '[' :: '[' :: rest => d.openElement? rest
  | '[' :: rest => d.openTable? rest
  | rest =>
    match endOfLine? rest with
    | some rest => some (d, rest)
    | none => d.addMember? rest

/-- The document after all lines, `fuel` at most. -/
def lines? : Nat → Document → List Char → Option Document
  | _, d, [] => some d
  | 0, _, _ => none
  | fuel + 1, d, cs => do
    let (d, rest) ← d.line? cs
    lines? fuel d rest

end Document

/-- The table that a text holds; a byte order mark in front does not count. -/
def read? (s : String) : Option Members :=
  let cs := match s.toList with
    | '\ufeff' :: rest => rest
    | cs => cs
  (Document.lines? (cs.length + 1) {} cs).map (·.root)

end Triage.Toml
