/-!
# Route rules

A decorator registers a route when it calls an attribute with one of the rule's names.
-/

namespace Triage

structure RouteRule where
  name : String
  attributes : List String
deriving DecidableEq, Repr, Inhabited

namespace RouteRule

def flask : RouteRule := ⟨"flask", ["route"]⟩

def fastapi : RouteRule :=
  ⟨"fastapi", ["get", "post", "put", "patch", "delete", "head", "options"]⟩

def accepts (r : RouteRule) (name : String) : Bool := r.attributes.contains name

end RouteRule

end Triage
