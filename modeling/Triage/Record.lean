/-!
# Records of one source file

What is kept of a file: the modules it imports, its call sites, and the routes it registers.
-/

namespace Triage

structure CallRecord where
  /-- A name, or a name and an attribute of it. -/
  name : String
  /-- The number of positional arguments. -/
  args : Nat
  line : Nat
deriving DecidableEq, Repr, Inhabited

/-- A route that a decorator registers. -/
structure RouteRecord where
  route : String
  /-- The name of the decorated function. -/
  handler : String
  /-- The line of the function. -/
  line : Nat
deriving DecidableEq, Repr, Inhabited

/-- A reading of an attribute, labelled by its source text. -/
structure AttributeAccess where
  label : String
  line : Nat
deriving DecidableEq, Repr, Inhabited

/-- All records of one file, each kind in source order. -/
structure FileRecord where
  path : String
  dependencies : List String := []
  calls : List CallRecord := []
  routes : List RouteRecord := []
deriving DecidableEq, Repr, Inhabited

namespace FileRecord

def empty (path : String) : FileRecord := { path := path }

def callNames (r : FileRecord) : List String := r.calls.map (·.name)

def isEmpty (r : FileRecord) : Bool :=
  r.dependencies.isEmpty && r.calls.isEmpty && r.routes.isEmpty

def count (r : FileRecord) : Nat :=
  r.dependencies.length + r.calls.length + r.routes.length

end FileRecord

end Triage
