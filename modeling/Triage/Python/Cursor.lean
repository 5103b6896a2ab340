import Triage.Python.Tree

/-!
# Walking a tree with a cursor

A cursor is a node together with its way up to the node it was created on, and it never leaves
that node's subtree. `Walk` yields the nodes one at a time by the three moves of a cursor: down to
the first child, right to the next sibling, up to the parent.
-/

namespace Triage.Python

/-- One step of the way up: the parent, and the siblings still to come. -/
structure Ancestor where
  parent : Tree
  later : List Tree
deriving Inhabited

/-- A position in a tree. -/
structure Cursor where
  node : Tree
  above : List Ancestor := []
deriving Inhabited

namespace Cursor

/-- The parent within the subtree the cursor was created on. -/
def parent? (c : Cursor) : Option Tree :=
  c.above.head?.map (·.parent)

def firstChild? (c : Cursor) : Option Cursor :=
  match c.node.children with
  | [] => none
  | t :: ts => some ⟨t, ⟨c.node, ts⟩ :: c.above⟩

def nextSibling? (c : Cursor) : Option Cursor :=
  match c.above with
  | ⟨p, t :: ts⟩ :: rest => some ⟨t, ⟨p, ts⟩ :: rest⟩
  | _ => none

def goParent? (c : Cursor) : Option Cursor :=
  match c.above with
  | [] => none
  | a :: rest => some ⟨a.parent, rest⟩

/-- Climb until there is a next sibling and move to it; nothing is left once the top is
reached. -/
def climb : List Ancestor → Option Cursor
  | [] => none
  | ⟨p, t :: ts⟩ :: rest => some ⟨t, ⟨p, ts⟩ :: rest⟩
  | ⟨_, []⟩ :: rest => climb rest

end Cursor

/-- A walk under way: the cursor of the next node, or nothing once the walk is over. -/
structure Walk where
  next? : Option Cursor
deriving Inhabited

namespace Walk

def start (t : Tree) : Walk := ⟨some ⟨t, []⟩⟩

/-- Yield a node and move on: to its first child, or else to the nearest later sibling of it or of
an ancestor. Once the walk is over, nothing is yielded and nothing changes. -/
def step (w : Walk) : Option Cursor × Walk :=
  match w.next? with
  | none => (none, w)
  | some c =>
    match c.firstChild? with
    | some d => (some c, ⟨some d⟩)
    | none => (some c, ⟨Cursor.climb c.above⟩)

def take : Nat → Walk → List Cursor
  | 0, _ => []
  | n + 1, w =>
    match w.step with
    | (none, _) => []
    | (some c, w') => c :: take n w'

end Walk

/-- The whole walk from the top of a tree. -/
def Tree.walk (t : Tree) : List Cursor :=
  (Walk.start t).take t.size

end Triage.Python
