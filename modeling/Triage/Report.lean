import Triage.Event.Codec
import Triage.Json.Printer
import Triage.Json.Reader

/-!
# Event reports

A report is the stream of events of a whole scan. Its text in a prompt is indented by two, and on
disk by four.
-/

namespace Triage

open Json

structure Report where
  analysis : List Event := []
deriving DecidableEq, Repr, Inhabited

namespace Report

def push (r : Report) (e : Event) : Report := ⟨r.analysis ++ [e]⟩

def extend (r : Report) (es : List Event) : Report := ⟨r.analysis ++ es⟩

def length (r : Report) : Nat := r.analysis.length

def isEmpty (r : Report) : Bool := r.analysis.isEmpty

def countOf (r : Report) (k : EventKind) : Nat := (r.analysis.filter (·.kind == k)).length

/-- The kinds that occur, and how often. -/
def counts (r : Report) : List (EventKind × Nat) :=
  (EventKind.all.map fun k => (k, r.countOf k)).filter (0 < ·.2)

def toValue (r : Report) : Value :=
  .ofMembers [("analysis", .array (r.analysis.map (·.toValue)))]

def ofValue? (v : Value) : Option Report := do
  match ← v.slots? ["analysis"] with
  | [analysis] => return ⟨← analysis.required? (Value.list? (Event.ofValue? 2))⟩
  | _ => none

/-- The text that goes into a prompt. -/
def promptText (r : Report) : String := r.toValue.print (.indented 2)

/-- The text that is kept on disk. -/
def fileText (r : Report) : String := r.toValue.print (.indented 4)

/-- The report that a text holds. -/
def ofText? (s : String) : Option Report := do ofValue? (← read? s)

end Report

end Triage
