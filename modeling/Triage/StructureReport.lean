import Triage.Json.Printer
import Triage.Json.Reader
import Triage.PathMap
import Triage.Record.Codec

/-!
# Structure reports

Dependencies, calls and routes by file, in three maps.
-/

namespace Triage

open Json

structure StructureReport where
  dependencies : PathMap (List String) := {}
  functionCalls : PathMap (List CallRecord) := {}
  routes : PathMap (List RouteRecord) := {}
deriving DecidableEq, Repr, Inhabited

namespace StructureReport

/-- Put in the records of a file; earlier records of the same path are gone. -/
def insert (s : StructureReport) (r : FileRecord) : StructureReport where
  dependencies := s.dependencies.insert r.path r.dependencies
  functionCalls := s.functionCalls.insert r.path r.calls
  routes := s.routes.insert r.path r.routes

def file? (s : StructureReport) (path : String) : Option FileRecord :=
  (s.dependencies.get? path).map fun dependencies =>
    ⟨path, dependencies, (s.functionCalls.get? path).getD [], (s.routes.get? path).getD []⟩

def fileCount (s : StructureReport) : Nat := s.dependencies.size

/-- Forget the calls and routes of a file. -/
def dropCalls (s : StructureReport) (path : String) : StructureReport :=
  { s with functionCalls := s.functionCalls.erase path, routes := s.routes.erase path }

def allRoutes (s : StructureReport) : List (String × RouteRecord) :=
  s.routes.entries.flatMap fun e => e.2.map fun r => (e.1, r)

/-- A map of lists as an object. -/
def mapValue {α : Type} (toValue : α → Value) (m : PathMap (List α)) : Value :=
  .ofMembers (m.entries.map fun e => (e.1, .array (e.2.map toValue)))

/-- The map of lists in an object; of repeated names the last one counts. -/
def map? {α : Type} (read : Value → Option α) (v : Value) : Option (PathMap (List α)) :=
  (v.pairs? (Value.list? read)).map PathMap.ofList

def toValue (s : StructureReport) : Value :=
  .ofMembers [("dependencies", mapValue .text s.dependencies),
    ("function_calls", mapValue CallRecord.toValue s.functionCalls),
    ("routes", mapValue RouteRecord.toValue s.routes)]

def ofValue? (v : Value) : Option StructureReport := do
  match ← v.slots? ["dependencies", "function_calls", "routes"] with
  | [dependencies, calls, routes] =>
    return ⟨← dependencies.required? (map? Value.string?),
      ← calls.required? (map? CallRecord.ofValue?), ← routes.required? (map? RouteRecord.ofValue?)⟩
  | _ => none

def promptText (s : StructureReport) : String := s.toValue.print (.indented 2)

def ofText? (s : String) : Option StructureReport := do ofValue? (← read? s)

end StructureReport

end Triage
