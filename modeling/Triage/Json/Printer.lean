import Triage.Json.Value

/-!
# Writing JSON

A value is written on one line without blanks, or with one item a line and an indentation of a
fixed width.
-/

namespace Triage.Json

inductive Layout where
  | compact
  | indented (width : Nat)
deriving DecidableEq, Repr

def escapeChar (c : Char) : List Char :=
  match c with
  | '"' => ['\\', '"']
  | '\\' => ['\\', '\\']
  | '\x08' => ['\\', 'b']
  | '\x0c' => ['\\', 'f']
  | '\n' => ['\\', 'n']
  | '\r' => ['\\', 'r']
  | '\t' => ['\\', 't']
  | c =>
    if c.toNat < 32 then
      ['\\', 'u', '0', '0', Nat.digitChar (c.toNat / 16), Nat.digitChar (c.toNat % 16)]
    else [c]

/-- A string between quotes. -/
def quote (t : Text) : List Char :=
  match t with
  | some s => '"' :: s.toList.flatMap escapeChar ++ ['"']
  | none => "\"\\ud800\"".toList

/-- The line end before an item at nesting `depth`. -/
def Layout.lineBreak (l : Layout) (depth : Nat) : List Char :=
  match l with
  | compact => []
  | indented width => '\n' :: List.replicate (width * depth) ' '

def Layout.colon : Layout → List Char
  | compact => [':']
  | indented _ => [':', ' ']

mutual
/-- The text of a value at nesting `depth`. -/
def render (l : Layout) (depth : Nat) : Value → List Char
  | .null => "null".toList
  | .bool true => "true".toList
  | .bool false => "false".toList
  | .number literal => literal.toList
  | .string t => quote t
  | .array [] => "[]".toList
  | .array (v :: vs) =>
    '[' :: l.lineBreak (depth + 1) ++ render l (depth + 1) v ++ renderItems l (depth + 1) vs ++
      l.lineBreak depth ++ [']']
  | .object [] => "\x7b\x7d".toList
  | .object ((name, v) :: ms) =>
    '\x7b' :: l.lineBreak (depth + 1) ++ quote name ++ l.colon ++ render l (depth + 1) v ++
      renderMembers l (depth + 1) ms ++ l.lineBreak depth ++ ['\x7d']
/-- Further items, each after a comma. -/
def renderItems (l : Layout) (depth : Nat) : List Value → List Char
  | [] => []
  | v :: vs => ',' :: l.lineBreak depth ++ render l depth v ++ renderItems l depth vs
/-- Further members, each after a comma. -/
def renderMembers (l : Layout) (depth : Nat) : List (Text × Value) → List Char
  | [] => []
  | (name, v) :: ms =>
    ',' :: l.lineBreak depth ++ quote name ++ l.colon ++ render l depth v ++
      renderMembers l depth ms
end

def Value.print (l : Layout) (v : Value) : String := String.ofList (render l 0 v)

end Triage.Json
