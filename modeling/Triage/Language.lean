import Triage.Files.Path
import Triage.Text.Lower

/-!
# Source languages

The language of a file is told by its extension, in any case of letters.
-/

namespace Triage

open Files

inductive Language where
  | python
deriving DecidableEq, Repr, Inhabited

namespace Language

def name : Language → String
  | python => "Python"

def extensions : Language → List String
  | python => ["py", "pyi"]

def ofExtension? (extension : String) : Option Language :=
  if python.extensions.contains (Text.lower extension) then some python else none

/-- The extension of a path, if it is a text. -/
def extensionText? (p : Path) : Option String := do
  String.fromUTF8? ⟨(← p.extension?).toArray⟩

def ofPath? (p : Path) : Option Language := do ofExtension? (← extensionText? p)

def allExtensions : List String := python.extensions

end Language

end Triage
