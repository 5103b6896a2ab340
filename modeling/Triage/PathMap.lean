/-!
# Maps from paths

A map keeps one value for each path, in the order of the paths as texts. Code points and UTF-8
bytes give the same order.
-/

namespace Triage

/-- Put a value at its place in an ordered list of entries, over a value that was there. -/
def insertEntry {α : Type} (path : String) (value : α) :
    List (String × α) → List (String × α)
  | [] => [(path, value)]
  | e :: es =>
    if path < e.1 then (path, value) :: e :: es
    else if path = e.1 then (path, value) :: es
    else e :: insertEntry path value es

structure PathMap (α : Type) where
  entries : List (String × α) := []
deriving DecidableEq, Repr

namespace PathMap

variable {α : Type}

instance : Inhabited (PathMap α) := ⟨{}⟩

def insert (m : PathMap α) (path : String) (value : α) : PathMap α :=
  ⟨insertEntry path value m.entries⟩

def get? (m : PathMap α) (path : String) : Option α :=
  (m.entries.find? (·.1 == path)).map (·.2)

def erase (m : PathMap α) (path : String) : PathMap α :=
  ⟨m.entries.filter (·.1 != path)⟩

def keys (m : PathMap α) : List String := m.entries.map (·.1)

def size (m : PathMap α) : Nat := m.entries.length

/-- The map of a list of pairs, of which later ones win. -/
def ofList (l : List (String × α)) : PathMap α :=
  l.foldl (fun m e => m.insert e.1 e.2) {}

end PathMap

end Triage
