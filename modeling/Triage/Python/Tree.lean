import Triage.Python.Kind

/-!
# Syntax trees

A tree is a node with its kind, the field it fills in its parent, the byte range it covers and the
row it starts on, over a list of children. Trees are plain data: nothing here assumes that a tree
came from a parser, that its ranges are nested, or that they fit a given text.
-/

namespace Triage.Python

/-- What a node carries besides its children. Rows count from zero, offsets are in bytes. -/
structure Label where
  kind : Kind
  field : Option Field := none
  start : Nat := 0
  stop : Nat := 0
  row : Nat := 0
  missing : Bool := false
deriving DecidableEq, Repr, Inhabited

/-- A concrete syntax tree. -/
inductive Tree where
  | node (label : Label) (children : List Tree)
deriving Repr, Inhabited

/-- The characters of a byte range, or nothing when the range is out of bounds or cuts a
character. -/
def textBetween (source : String) (start stop : Nat) : String :=
  if start ≤ stop ∧ stop ≤ source.utf8ByteSize then
    (String.fromUTF8? (source.toUTF8.extract start stop)).getD ""
  else ""

namespace Tree

def label : Tree → Label
  | node l _ => l

def children : Tree → List Tree
  | node _ cs => cs

def kind (t : Tree) : Kind := t.label.kind

def field (t : Tree) : Option Field := t.label.field

def line (t : Tree) : Nat := t.label.row + 1

/-- The text of a node in `source`, which need not be the text it was read from. -/
def text (source : String) (t : Tree) : String :=
  textBetween source t.label.start t.label.stop

def isExtra (t : Tree) : Bool := t.kind.isExtra

/-- The children that are not keywords or punctuation. -/
def namedChildren (t : Tree) : List Tree :=
  t.children.filter (·.kind.isNamed)

def childrenBy (f : Field) (t : Tree) : List Tree :=
  t.children.filter (·.field == some f)

/-- The first child that fills `f`. -/
def childBy? (f : Field) (t : Tree) : Option Tree :=
  t.children.find? (·.field == some f)

/-- A node that stands for unreadable text, or for text that should have been there. -/
def isFault (t : Tree) : Bool :=
  t.kind == .error || t.label.missing

mutual
def size : Tree → Nat
  | node _ cs => sizeAll cs + 1
def sizeAll : List Tree → Nat
  | [] => 0
  | c :: cs => size c + sizeAll cs
end

mutual
/-- A node, then its children's nodes from left to right. -/
def preorder : Tree → List Tree
  | node l cs => node l cs :: preorderAll cs
def preorderAll : List Tree → List Tree
  | [] => []
  | c :: cs => preorder c ++ preorderAll cs
end

end Tree

end Triage.Python
