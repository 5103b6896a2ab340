import Triage.Json.Decode
import Triage.Record
import Triage.RouteRule

/-!
# Records as JSON

Members are written in the order of the fields.
-/

namespace Triage

open Json

namespace CallRecord

def toValue (c : CallRecord) : Value :=
  .ofMembers [("name", .text c.name), ("args", .nat c.args), ("line", .nat c.line)]

def ofValue? (v : Value) : Option CallRecord := do
  match ← v.slots? ["name", "args", "line"] with
  | [name, args, line] =>
    return ⟨← name.required? Value.string?, ← args.required? (Value.natUpTo? maxWord),
      ← line.required? (Value.natUpTo? maxWord)⟩
  | _ => none

end CallRecord

namespace RouteRecord

def toValue (r : RouteRecord) : Value :=
  .ofMembers [("route", .text r.route), ("handler", .text r.handler), ("line", .nat r.line)]

def ofValue? (v : Value) : Option RouteRecord := do
  match ← v.slots? ["route", "handler", "line"] with
  | [route, handler, line] =>
    return ⟨← route.required? Value.string?, ← handler.required? Value.string?,
      ← line.required? (Value.natUpTo? maxWord)⟩
  | _ => none

end RouteRecord

namespace AttributeAccess

def toValue (a : AttributeAccess) : Value :=
  .ofMembers [("label", .text a.label), ("line", .nat a.line)]

def ofValue? (v : Value) : Option AttributeAccess := do
  match ← v.slots? ["label", "line"] with
  | [label, line] =>
    return ⟨← label.required? Value.string?, ← line.required? (Value.natUpTo? maxWord)⟩
  | _ => none

end AttributeAccess

namespace FileRecord

def toValue (r : FileRecord) : Value :=
  .ofMembers [("path", .text r.path), ("dependencies", .array (r.dependencies.map .text)),
    ("calls", .array (r.calls.map (·.toValue))), ("routes", .array (r.routes.map (·.toValue)))]

def ofValue? (v : Value) : Option FileRecord := do
  match ← v.slots? ["path", "dependencies", "calls", "routes"] with
  | [path, dependencies, calls, routes] =>
    return ⟨← path.required? Value.string?,
      ← dependencies.required? (Value.list? Value.string?),
      ← calls.required? (Value.list? CallRecord.ofValue?),
      ← routes.required? (Value.list? RouteRecord.ofValue?)⟩
  | _ => none

end FileRecord

namespace RouteRule

def toValue (r : RouteRule) : Value :=
  .ofMembers [("name", .text r.name), ("attributes", .array (r.attributes.map .text))]

def ofValue? (v : Value) : Option RouteRule := do
  match ← v.slots? ["name", "attributes"] with
  | [name, attributes] =>
    return ⟨← name.required? Value.string?, ← attributes.required? (Value.list? Value.string?)⟩
  | _ => none

end RouteRule

end Triage
