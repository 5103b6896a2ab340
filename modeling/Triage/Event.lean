/-!
# Events

The flat stream of observations that is sent out for assessment.
-/

namespace Triage

inductive EventKind where
  | functionCall | decorator | attributeAccess
deriving DecidableEq, Repr, Inhabited

namespace EventKind

/-- The name of a kind in a report. -/
def name : EventKind → String
  | functionCall => "Function Call"
  | decorator => "Decorator"
  | attributeAccess => "Attribute Access"

def all : List EventKind := [functionCall, decorator, attributeAccess]

def ofName? (s : String) : Option EventKind := all.find? (·.name == s)

end EventKind

/-- What is observed. A report may pair any details with any kind. -/
inductive EventDetails where
  | call (function : String) (args : Nat)
  | decorator (decorator function : String)
  | attribute (label : String)
deriving DecidableEq, Repr, Inhabited

/-- One observation. -/
structure Event where
  file : String
  line : Option Nat
  kind : EventKind
  details : EventDetails
deriving DecidableEq, Repr, Inhabited

namespace Event

def functionCall (file : String) (line : Nat) (function : String) (args : Nat) : Event :=
  ⟨file, some line, .functionCall, .call function args⟩

def decorator (file : String) (line : Nat) (decorator function : String) : Event :=
  ⟨file, some line, .decorator, .decorator decorator function⟩

def attributeAccess (file : String) (line : Option Nat) (label : String) : Event :=
  ⟨file, line, .attributeAccess, .attribute label⟩

end Event

end Triage
