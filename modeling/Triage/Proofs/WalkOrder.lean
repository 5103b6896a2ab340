import Mathlib
import Triage.Proofs.Traversal

/-!
# A walk yields the nodes below, and no other

A cursor with its whole way up is the place of a node in a tree. The walk of a node starts without
that way up, so it ends where the node does, whatever stands beside or above the node. Put back
under the node, its yields are the places of the subtree in pre-order, each of them once.
-/

namespace Triage.Python

namespace Cursor

/-- One place is that of a child of the node at the other. -/
def HasChild (c d : Cursor) : Prop :=
  ∃ before later, c.node.children = before ++ d.node :: later ∧
    d.above = ⟨c.node, later⟩ :: c.above

/-- The place in the whole tree of what a walk from `n` yields. -/
def under (n c : Cursor) : Cursor := ⟨c.node, c.above ++ n.above⟩

theorem mem_belowAll {parent : Tree} {above : List Ancestor} {cs : List Tree} {c : Cursor} :
    c ∈ belowAll parent above cs ↔
      ∃ before t later, cs = before ++ t :: later ∧ c ∈ below (⟨parent, later⟩ :: above) t := by
  induction cs with
  | nil => simp [belowAll]
  | cons t ts ih =>
    rw [belowAll, List.mem_append, ih]
    constructor
    · rintro (hc | ⟨before, u, later, rfl, hc⟩)
      · exact ⟨[], t, ts, rfl, hc⟩
      · exact ⟨t :: before, u, later, rfl, hc⟩
    · rintro ⟨before, u, later, hts, hc⟩
      cases before with
      | nil =>
        obtain ⟨rfl, rfl⟩ := List.cons.inj hts
        exact Or.inl hc
      | cons _ before =>
        obtain ⟨-, rfl⟩ := List.cons.inj hts
        exact Or.inr ⟨before, u, later, rfl, hc⟩

theorem mem_below {n c : Cursor} :
    c ∈ below n.above n.node ↔ c = n ∨ ∃ d, n.HasChild d ∧ c ∈ below d.above d.node := by
  obtain ⟨⟨l, cs⟩, above⟩ := n
  rw [below, List.mem_cons, mem_belowAll]
  constructor
  · rintro (rfl | ⟨before, t, later, hcs, hc⟩)
    · exact Or.inl rfl
    · exact Or.inr ⟨⟨t, ⟨.node l cs, later⟩ :: above⟩, ⟨before, later, hcs, rfl⟩, hc⟩
  · rintro (rfl | ⟨⟨t, _⟩, ⟨before, later, hcs, rfl⟩, hc⟩)
    · exact Or.inl rfl
    · exact Or.inr ⟨before, t, later, hcs, hc⟩

theorem reaches_of_mem_below {t : Tree} {above : List Ancestor} {c : Cursor}
    (hc : c ∈ below above t) : Relation.ReflTransGen HasChild ⟨t, above⟩ c := by
  induction t using Tree.induction generalizing above with
  | node l cs ih =>
    rcases mem_below (n := ⟨.node l cs, above⟩).mp hc with rfl | ⟨d, hd, hc⟩
    · exact .refl
    · have hmem : d.node ∈ cs := by
        obtain ⟨before, later, hcs, -⟩ := hd
        have hcs : cs = before ++ d.node :: later := hcs
        rw [hcs]
        exact List.mem_append_right before List.mem_cons_self
      exact .head hd (ih d.node hmem hc)

/-- The places below a place are those that lead down from it, child by child. -/
theorem mem_below_iff {n c : Cursor} :
    c ∈ below n.above n.node ↔ Relation.ReflTransGen HasChild n c := by
  constructor
  · exact reaches_of_mem_below
  · intro h
    induction h using Relation.ReflTransGen.head_induction_on with
    | refl => exact mem_below.mpr (Or.inl rfl)
    | head hd _ ih => exact mem_below.mpr (Or.inr ⟨_, hd, ih⟩)

/-- The way up from a place leads through every place above it. -/
theorem above_suffix {n c : Cursor} (h : Relation.ReflTransGen HasChild n c) :
    n.above <:+ c.above := by
  induction h with
  | refl => exact List.suffix_rfl
  | tail _ hd ih =>
    obtain ⟨_, later, -, habove⟩ := hd
    exact habove ▸ ih.trans (List.suffix_cons _ _)

/-- Two children of one parent have no place below them in common. -/
theorem disjoint_siblings {parent t u : Tree} {above : List Ancestor} {before later : List Tree}
    {c : Cursor} (ht : c ∈ below (⟨parent, before ++ u :: later⟩ :: above) t) :
    c ∉ below (⟨parent, later⟩ :: above) u := by
  intro hu
  have hfirst := above_suffix (reaches_of_mem_below ht)
  have hsecond := above_suffix (reaches_of_mem_below hu)
  -- both ways up have one length, so they are the same end of the way up from `c`
  have hsame := (List.suffix_of_suffix_length_le hfirst hsecond (by simp)).eq_of_length (by simp)
  have hlater : before ++ u :: later = later := (Ancestor.mk.inj (List.cons.inj hsame).1).2
  have hlength := congrArg List.length hlater
  simp only [List.length_append, List.length_cons] at hlength
  omega

theorem nodup_belowAll {parent : Tree} {above : List Ancestor} {cs : List Tree}
    (h : ∀ t ∈ cs, ∀ above, (below above t).Nodup) : (belowAll parent above cs).Nodup := by
  induction cs with
  | nil => exact List.nodup_nil
  | cons t ts ih =>
    rw [belowAll]
    refine List.Nodup.append (h t List.mem_cons_self _)
      (ih fun u hu => h u (List.mem_cons_of_mem _ hu)) ?_
    intro c hc hrest
    obtain ⟨before, u, later, rfl, hu⟩ := mem_belowAll.mp hrest
    exact disjoint_siblings hc hu

/-- No place is met twice. -/
theorem nodup_below (above : List Ancestor) (t : Tree) : (below above t).Nodup := by
  induction t using Tree.induction generalizing above with
  | node l cs ih =>
    rw [below, List.nodup_cons]
    refine ⟨?_, nodup_belowAll fun t ht above => ih t ht above⟩
    intro htop
    obtain ⟨_, t, later, -, ht⟩ := mem_belowAll.mp htop
    have hlength := (above_suffix (reaches_of_mem_below ht)).length_le
    simp only [List.length_cons] at hlength
    omega

mutual
theorem map_under_below (n : Cursor) (above : List Ancestor) :
    ∀ t, (below above t).map n.under = below (above ++ n.above) t
  | .node l cs => by
    rw [below, below, List.map_cons, map_under_belowAll n (.node l cs) above cs]
    rfl
theorem map_under_belowAll (n : Cursor) (parent : Tree) (above : List Ancestor) :
    ∀ cs, (belowAll parent above cs).map n.under = belowAll parent (above ++ n.above) cs
  | [] => rfl
  | t :: ts => by
    rw [belowAll, belowAll, List.map_append, map_under_below n (⟨parent, ts⟩ :: above) t,
      map_under_belowAll n parent above ts]
    rfl
end

theorem map_node_below (above : List Ancestor) (t : Tree) :
    (below above t).map (·.node) = t.preorder := by
  rw [← Tree.map_visits (above.head?.map (·.parent)) t, ← map_below, List.map_map]
  rfl

end Cursor

namespace Walk

/-- What the step with number `k` yields. -/
def yield? : Nat → Walk → Option Cursor
  | 0, w => w.step.1
  | k + 1, w => yield? k w.step.2

theorem yield?_eq_pending (k : Nat) (w : Walk) : w.yield? k = w.pending[k]? := by
  induction k generalizing w with
  | zero =>
    rw [yield?, (step_pending w).1, List.head?_eq_getElem?]
  | succ k ih =>
    rw [yield?, ih, (step_pending w).2, List.getElem?_tail]

theorem pending_start (t : Tree) : (start t).pending = Cursor.below [] t := by
  simp [start, pending, Cursor.after]

/-- The walk from a node, wherever the node stands, yields the nodes of its subtree in pre-order,
step by step, and nothing from then on. The places of these nodes in the whole tree are those that
lead down from the node, each of them once. -/
theorem yields_subtree (n : Cursor) :
    (∀ k, ((start n.node).yield? k).map n.under = (Cursor.below n.above n.node)[k]?) ∧
      (∀ k, (start n.node).yield? k = none ↔ n.node.size ≤ k) ∧
      (∀ steps, n.node.size ≤ steps →
        ((start n.node).take steps).map n.under = Cursor.below n.above n.node) ∧
      (Cursor.below n.above n.node).map (·.node) = n.node.preorder ∧
      (Cursor.below n.above n.node).Nodup ∧
      ∀ c, c ∈ Cursor.below n.above n.node ↔ Relation.ReflTransGen Cursor.HasChild n c := by
  have hplaces : (Cursor.below [] n.node).map n.under = Cursor.below n.above n.node :=
    Cursor.map_under_below n [] n.node
  refine ⟨?_, ?_, ?_, Cursor.map_node_below _ _, Cursor.nodup_below _ _,
    fun c => Cursor.mem_below_iff⟩
  · intro k
    rw [yield?_eq_pending, pending_start, ← hplaces, List.getElem?_map]
  · intro k
    rw [yield?_eq_pending, pending_start, List.getElem?_eq_none_iff, Cursor.length_below]
  · intro steps hsteps
    rw [take_eq_pending, pending_start, List.take_of_length_le, hplaces]
    rwa [Cursor.length_below]

end Walk

end Triage.Python
