import Triage.Event
import Triage.Json.Decode

/-!
# Events as JSON

The details of an event are written without a tag. They are read as the first of call, decorator
and attribute whose members are there; for that they are held in memory as they are, which sets a
limit to their nesting.
-/

namespace Triage

open Json

/-- How many brackets may be open where a value is held before its type is known. -/
def nestingLimit : Nat := 127

namespace EventKind

def toValue (k : EventKind) : Value := .text k.name

/-- A kind is its name, or an object that gives null for it. -/
def ofValue? : Value → Option EventKind
  | .string (some s) => ofName? s
  | .object [(some s, .null)] => ofName? s
  | _ => none

end EventKind

namespace EventDetails

def toValue : EventDetails → Value
  | .call function args => .ofMembers [("function", .text function), ("args", .nat args)]
  | .decorator d function => .ofMembers [("decorator", .text d), ("function", .text function)]
  | .attribute label => .ofMembers [("attribute", .text label)]

def call? (v : Value) : Option EventDetails := do
  match ← v.slots? ["function", "args"] with
  | [function, args] =>
    return .call (← function.required? Value.string?) (← args.required? (Value.natUpTo? maxWord))
  | _ => none

def decorator? (v : Value) : Option EventDetails := do
  match ← v.slots? ["decorator", "function"] with
  | [d, function] =>
    return .decorator (← d.required? Value.string?) (← function.required? Value.string?)
  | _ => none

def attribute? (v : Value) : Option EventDetails := do
  match ← v.slots? ["attribute"] with
  | [label] => return .attribute (← label.required? Value.string?)
  | _ => none

/-- The details within `above` open brackets. -/
def ofValue? (above : Nat) (v : Value) : Option EventDetails :=
  match v with
  | .object _ =>
    if v.isHoldable (nestingLimit - above) then
      (call? v <|> decorator? v) <|> attribute? v
    else none
  | _ => none

end EventDetails

namespace Event

def toValue (e : Event) : Value :=
  .ofMembers [("file", .text e.file), ("line", (e.line.map .nat).getD .null),
    ("type", e.kind.toValue), ("details", e.details.toValue)]

/-- The event within `above` open brackets. -/
def ofValue? (above : Nat) (v : Value) : Option Event := do
  match ← v.slots? ["file", "line", "type", "details"] with
  | [file, line, kind, details] =>
    return ⟨← file.required? Value.string?, ← line.optional? (Value.natUpTo? maxWord),
      ← kind.required? EventKind.ofValue?,
      ← details.required? (EventDetails.ofValue? (above + 1))⟩
  | _ => none

end Event

end Triage
