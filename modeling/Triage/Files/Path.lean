import Triage.Text.Utf8

/-!
# Paths

A path is a string of bytes whose names stand between slashes. Empty names and single dots within
a path mean nothing; a dot in front of everything is kept.
-/

namespace Triage.Files

abbrev Name := List UInt8

structure Path where
  bytes : List UInt8
deriving DecidableEq, Repr, Inhabited

def slash : UInt8 := 47

def dot : UInt8 := 46

def nameOf (s : String) : Name := s.toUTF8.toList

/-- The name of the directory itself. -/
def hereName : Name := [dot]

/-- The name of the directory above. -/
def upName : Name := [dot, dot]

/-- The parts of a byte string between slashes. -/
def splitSlashes : List UInt8 → List Name
  | [] => [[]]
  | b :: bs =>
    if b = slash then [] :: splitSlashes bs
    else
      match splitSlashes bs with
      | [] => [[b]]
      | n :: ns => (b :: n) :: ns

def joinSlashes : List Name → List UInt8
  | [] => []
  | [n] => n
  | n :: m :: ns => n ++ slash :: joinSlashes (m :: ns)

namespace Path

def ofString (s : String) : Path := ⟨s.toUTF8.toList⟩

/-- The path as a text, with replacement characters where it is no UTF-8. -/
def text (p : Path) : String := String.ofList (Text.decodeLossy p.bytes)

def isAbsolute (p : Path) : Bool := p.bytes.head? == some slash

def isEmpty (p : Path) : Bool := p.bytes.isEmpty

/-- Whether a part of a path that is not its first one means anything. -/
def isSignificant (n : Name) : Bool := n != [] && n != hereName

/-- The names of a path; a dot in front of a relative path is one of them. -/
def names (p : Path) : List Name :=
  match splitSlashes p.bytes with
  | [] => []
  | n :: ns => (if n = [] then [] else [n]) ++ ns.filter isSignificant

/-- The last name, unless it is a dot or two. -/
def fileName? (p : Path) : Option Name :=
  p.names.getLast?.filter fun n => n != hereName && n != upName

/-- What follows the last dot of the file name, when something stands before that dot. -/
def extension? (p : Path) : Option (List UInt8) := do
  let reversed := (← p.fileName?).reverse
  let after := reversed.takeWhile (· != dot)
  let before := (reversed.dropWhile (· != dot)).drop 1
  if before.isEmpty then none else some after.reverse

/-- The parts of a path, last one first, without those at the end that mean nothing. -/
def trimmedParts : List Name → List Name
  | [] => []
  | [n] => [n]
  | n :: m :: ns => if isSignificant n then n :: m :: ns else trimmedParts (m :: ns)

/-- The path without its last name; there is none for the root and for the empty path. -/
def parent? (p : Path) : Option Path :=
  match trimmedParts (splitSlashes p.bytes).reverse with
  | [] => none
  | [n] => if n = [] then none else some ⟨[]⟩
  | _ :: m :: ns =>
    match trimmedParts (m :: ns) with
    | [[]] => some ⟨[slash]⟩
    | parts => some ⟨joinSlashes parts.reverse⟩

/-- The path and the ones above it, at most `fuel` of them. -/
def upward : Nat → Path → List Path
  | 0, _ => []
  | fuel + 1, p =>
    match p.parent? with
    | some q => p :: upward fuel q
    | none => [p]

/-- The path and every one above it, which are all shorter. -/
def ancestors (p : Path) : List Path := upward (p.bytes.length + 1) p

/-- The path `q` as seen from `p`. -/
def join (p q : Path) : Path :=
  if q.isAbsolute || p.isEmpty then q
  else if p.bytes.getLast? = some slash then ⟨p.bytes ++ q.bytes⟩
  else ⟨p.bytes ++ slash :: q.bytes⟩

def child (p : Path) (n : Name) : Path := p.join ⟨n⟩

end Path

end Triage.Files
