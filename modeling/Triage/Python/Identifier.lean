import Triage.Python.IdentifierRanges

/-!
# Identifiers

An identifier is a letter or underscore followed by letters, digits, marks and underscores.
-/

namespace Triage.Python

/-- Whether a code point lies in one of the ranges, which ascend. -/
def inRanges (n : Nat) : List (Nat × Nat) → Bool
  | [] => false
  | (lo, hi) :: rest => if n < lo then false else if n ≤ hi then true else inRanges n rest

def isIdentifierStart (c : Char) : Bool :=
  if c.toNat < 128 then c.isAlpha || c == '_'
  else inRanges c.toNat identifierStartRanges

def isIdentifierContinue (c : Char) : Bool :=
  if c.toNat < 128 then c.isAlphanum || c == '_'
  else inRanges c.toNat identifierStartRanges || inRanges c.toNat identifierContinueRanges

/-- The identifier at the front of the text, empty when there is none. -/
def identifierAt : List Char → List Char
  | [] => []
  | c :: cs => if isIdentifierStart c then c :: cs.takeWhile isIdentifierContinue else []

end Triage.Python
