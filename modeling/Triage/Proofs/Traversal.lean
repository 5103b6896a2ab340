import Triage.Python.Extract

/-!
# The walk is the pre-order

A walk moves a cursor one step at a time. Here its yields are computed from the tree alone: the
cursors of a subtree in pre-order, then those of the later siblings on the way up. What a cursor
yields is a node and its parent, and `visits` lists these by recursion on the tree. So the nodes of
a tree are its top and the nodes of its children.
-/

namespace Triage.Python

mutual
/-- The cursors of a subtree whose way up is `above`, in pre-order. -/
def Cursor.below (above : List Ancestor) : Tree → List Cursor
  | .node l cs => ⟨.node l cs, above⟩ :: belowAll (.node l cs) above cs
/-- The cursors of the children `cs`, the last ones of `parent`. -/
def Cursor.belowAll (parent : Tree) (above : List Ancestor) : List Tree → List Cursor
  | [] => []
  | c :: cs => below (⟨parent, cs⟩ :: above) c ++ belowAll parent above cs
end

/-- The cursors that are left once a subtree is done, the nearest ones first. -/
def Cursor.after : List Ancestor → List Cursor
  | [] => []
  | ⟨p, ts⟩ :: above => belowAll p above ts ++ after above

/-- To climb is to try the next sibling, then the parent, over and over. -/
theorem Cursor.climb_above (c : Cursor) :
    climb c.above = c.nextSibling?.or (c.goParent?.bind fun p => climb p.above) := by
  obtain ⟨t, above⟩ := c
  match above with
  | [] => rfl
  | ⟨_, []⟩ :: _ => rfl
  | ⟨_, _ :: _⟩ :: _ => rfl

/-- The cursors that a walk has yet to yield. -/
def Walk.pending (w : Walk) : List Cursor :=
  match w.next? with
  | none => []
  | some c => Cursor.below c.above c.node ++ Cursor.after c.above

namespace Walk

theorem pending_climb (c : Cursor) : pending ⟨Cursor.climb c.above⟩ = Cursor.after c.above := by
  obtain ⟨t, above⟩ := c
  induction above generalizing t with
  | nil => rfl
  | cons a rest ih =>
    obtain ⟨p, later⟩ := a
    rw [Cursor.climb_above]
    cases later with
    | nil =>
      -- No sibling is left, so the climb goes on from the parent.
      have hparent : pending ⟨Cursor.climb rest⟩ = Cursor.after rest := ih p
      simpa [Cursor.nextSibling?, Cursor.goParent?, Cursor.after, Cursor.belowAll] using hparent
    | cons u us =>
      simp [Cursor.nextSibling?, Cursor.after, Cursor.belowAll, pending, List.append_assoc]

/-- A step yields the first pending cursor and leaves the others pending. -/
theorem step_pending (w : Walk) :
    w.step.1 = w.pending.head? ∧ w.step.2.pending = w.pending.tail := by
  obtain ⟨next⟩ := w
  cases next with
  | none => exact ⟨rfl, rfl⟩
  | some c =>
    obtain ⟨⟨l, cs⟩, above⟩ := c
    cases cs with
    | nil =>
      have hstep : (step ⟨some ⟨.node l [], above⟩⟩).2 = ⟨Cursor.climb above⟩ := rfl
      refine ⟨rfl, ?_⟩
      rw [hstep, pending_climb ⟨.node l [], above⟩]
      simp [pending, Cursor.below, Cursor.belowAll]
    | cons t ts =>
      have hstep : (step ⟨some ⟨.node l (t :: ts), above⟩⟩).2 =
          ⟨some ⟨t, ⟨.node l (t :: ts), ts⟩ :: above⟩⟩ := rfl
      refine ⟨rfl, ?_⟩
      rw [hstep]
      simp [pending, Cursor.below, Cursor.belowAll, Cursor.after, List.append_assoc]

theorem take_eq_pending (n : Nat) (w : Walk) : w.take n = w.pending.take n := by
  induction n generalizing w with
  | zero => rfl
  | succ n ih =>
    obtain ⟨hyield, hrest⟩ := step_pending w
    rw [take]
    split
    · rename_i hstep
      rw [hstep] at hyield
      rw [List.head?_eq_none_iff.mp hyield.symm, List.take_nil]
    · rename_i c w' hstep
      rw [hstep] at hyield hrest
      obtain ⟨rest, hpending⟩ := List.head?_eq_some_iff.mp hyield.symm
      rw [ih, hrest, hpending, List.take_succ_cons, List.tail_cons]

end Walk

mutual
theorem Cursor.length_below (above : List Ancestor) :
    ∀ t, (below above t).length = t.size
  | .node l cs => by simp [below, Tree.size, length_belowAll (.node l cs) above cs]
theorem Cursor.length_belowAll (parent : Tree) (above : List Ancestor) :
    ∀ cs, (belowAll parent above cs).length = Tree.sizeAll cs
  | [] => rfl
  | c :: cs => by
    simp [belowAll, Tree.sizeAll, length_below (⟨parent, cs⟩ :: above) c,
      length_belowAll parent above cs]
end

/-- A walk from the top yields every node once, in pre-order, and nothing else. -/
theorem Tree.walk_eq_below (t : Tree) : t.walk = Cursor.below [] t := by
  have hp : (Walk.start t).pending = Cursor.below [] t := by
    simp [Walk.start, Walk.pending, Cursor.after]
  rw [Tree.walk, Walk.take_eq_pending, hp, ← Cursor.length_below [] t, List.take_length]

mutual
/-- The nodes of a subtree in pre-order, each with its parent. -/
def Tree.visits (parent? : Option Tree) : Tree → List (Option Tree × Tree)
  | .node l cs => (parent?, .node l cs) :: visitsAll (.node l cs) cs
/-- The nodes below `parent` in the subtrees `cs`. -/
def Tree.visitsAll (parent : Tree) : List Tree → List (Option Tree × Tree)
  | [] => []
  | c :: cs => visits (some parent) c ++ visitsAll parent cs
end

mutual
theorem Cursor.map_below (above : List Ancestor) :
    ∀ t, (below above t).map (fun c => (c.parent?, c.node)) =
      t.visits (above.head?.map (·.parent))
  | .node l cs => by
    have top : Cursor.parent? ⟨.node l cs, above⟩ = above.head?.map (·.parent) := rfl
    simp [below, Tree.visits, map_belowAll (.node l cs) above cs, top]
theorem Cursor.map_belowAll (parent : Tree) (above : List Ancestor) :
    ∀ cs, (belowAll parent above cs).map (fun c => (c.parent?, c.node)) =
      Tree.visitsAll parent cs
  | [] => rfl
  | c :: cs => by
    simp [belowAll, Tree.visitsAll, map_below (⟨parent, cs⟩ :: above) c,
      map_belowAll parent above cs]
end

namespace Tree

theorem walk_visits (t : Tree) :
    t.walk.map (fun c => (c.parent?, c.node)) = t.visits none := by
  rw [walk_eq_below, Cursor.map_below]
  rfl

mutual
theorem map_visits (parent? : Option Tree) :
    ∀ t, (visits parent? t).map (·.2) = t.preorder
  | .node l cs => by simp [visits, preorder, map_visitsAll (.node l cs) cs]
theorem map_visitsAll (parent : Tree) :
    ∀ cs, (visitsAll parent cs).map (·.2) = preorderAll cs
  | [] => rfl
  | c :: cs => by
    simp [visitsAll, preorderAll, map_visits (some parent) c, map_visitsAll parent cs]
end

theorem nodes_eq_preorder (t : Tree) : t.nodes = t.preorder := by
  rw [← map_visits none t, ← walk_visits, List.map_map]
  rfl

theorem visitsAll_eq_flatMap (parent : Tree) (cs : List Tree) :
    visitsAll parent cs = cs.flatMap (visits (some parent)) := by
  induction cs with
  | nil => rfl
  | cons c cs ih => rw [visitsAll, ih, List.flatMap_cons]

theorem preorderAll_eq_flatMap (cs : List Tree) : preorderAll cs = cs.flatMap preorder := by
  induction cs with
  | nil => rfl
  | cons c cs ih => rw [preorderAll, ih, List.flatMap_cons]

mutual
/-- What passes from the children to the node holds of every tree. -/
theorem induction {motive : Tree → Prop}
    (node : ∀ l cs, (∀ c ∈ cs, motive c) → motive (.node l cs)) : ∀ t, motive t
  | .node l cs => node l cs (inductionAll node cs)
theorem inductionAll {motive : Tree → Prop}
    (node : ∀ l cs, (∀ c ∈ cs, motive c) → motive (.node l cs)) :
    ∀ cs : List Tree, ∀ c ∈ cs, motive c
  | [], _, hd => nomatch hd
  | c :: cs, d, hd => by
    rcases List.mem_cons.mp hd with hdc | hd
    · exact hdc ▸ induction node c
    · exact inductionAll node cs d hd
end

theorem nodes_node (l : Label) (cs : List Tree) :
    nodes (.node l cs) = .node l cs :: cs.flatMap nodes := by
  have hall : nodes = preorder := funext nodes_eq_preorder
  rw [hall, preorder, preorderAll_eq_flatMap]

theorem visits_eq (parent? : Option Tree) (t : Tree) :
    t.visits parent? = (parent?, t) :: t.children.flatMap (visits (some t)) := by
  obtain ⟨l, cs⟩ := t
  rw [visits, visitsAll_eq_flatMap]
  rfl

theorem self_mem_nodes (t : Tree) : t ∈ t.nodes := by
  obtain ⟨l, cs⟩ := t
  rw [nodes_node]
  exact List.mem_cons_self

theorem mem_nodes_of_child {t c n : Tree} (hc : c ∈ t.children) (hn : n ∈ c.nodes) :
    n ∈ t.nodes := by
  obtain ⟨l, cs⟩ := t
  rw [nodes_node]
  exact List.mem_cons_of_mem _ (List.mem_flatMap.mpr ⟨c, hc, hn⟩)

theorem child_mem_nodes {t c : Tree} {f : Field} (h : t.childBy? f = some c) : c ∈ t.nodes :=
  mem_nodes_of_child (List.mem_of_find?_eq_some h) (self_mem_nodes c)

theorem mem_nodes_trans {m n : Tree} (t : Tree) (hn : n ∈ t.nodes) (hm : m ∈ n.nodes) :
    m ∈ t.nodes := by
  induction t using Tree.induction with
  | node l cs ih =>
    rw [nodes_node] at hn
    rcases List.mem_cons.mp hn with rfl | hn
    · exact hm
    · obtain ⟨c, hc, hn⟩ := List.mem_flatMap.mp hn
      exact mem_nodes_of_child hc (ih c hc hn)

end Tree

end Triage.Python
