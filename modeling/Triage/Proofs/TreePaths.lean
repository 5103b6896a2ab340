import Triage.Proofs.Traversal

/-!
# Paths in a tree

A node has a path from the top: the number of a child at each step. The pre-order is the
lexicographic order of these paths, in which a node comes before what is below it, and everything
below a child comes before everything below a later one.
-/

namespace Triage.Python.Tree

/-- The node at the end of a path. -/
def at? : Tree → List Nat → Option Tree
  | t, [] => some t
  | t, i :: p => t.children[i]?.bind fun c => c.at? p

mutual
/-- The nodes of a tree in pre-order, each behind its path. -/
def places : Tree → List (List Nat × Tree)
  | .node l cs => ([], .node l cs) :: placesFrom 0 cs
/-- The nodes of the children from number `i` on. -/
def placesFrom (i : Nat) : List Tree → List (List Nat × Tree)
  | [] => []
  | c :: cs => (places c).map (fun v => (i :: v.1, v.2)) ++ placesFrom (i + 1) cs
end

mutual
theorem map_places : ∀ t : Tree, t.places.map (·.2) = t.preorder
  | .node l cs => by rw [places, preorder, List.map_cons, map_placesFrom 0 cs]
theorem map_placesFrom (i : Nat) :
    ∀ cs : List Tree, (placesFrom i cs).map (·.2) = preorderAll cs
  | [] => rfl
  | c :: cs => by
    rw [placesFrom, preorderAll, List.map_append, List.map_map, ← map_places c,
      map_placesFrom (i + 1) cs]
    rfl
end

theorem mem_placesFrom {i : Nat} {cs : List Tree} {p : List Nat} {n : Tree} :
    (p, n) ∈ placesFrom i cs ↔
      ∃ j c q, cs[j]? = some c ∧ (q, n) ∈ c.places ∧ p = (i + j) :: q := by
  induction cs generalizing i with
  | nil => simp [placesFrom]
  | cons c cs ih =>
    rw [placesFrom, List.mem_append, ih]
    constructor
    · rintro (h | ⟨j, d, q, hd, hq, rfl⟩)
      · obtain ⟨⟨q, m⟩, hq, heq⟩ := List.mem_map.mp h
        obtain ⟨rfl, rfl⟩ := Prod.mk.inj heq
        exact ⟨0, c, q, rfl, hq, rfl⟩
      · exact ⟨j + 1, d, q, hd, hq, by rw [Nat.add_right_comm, Nat.add_assoc]⟩
    · rintro ⟨j, d, q, hd, hq, rfl⟩
      cases j with
      | zero =>
        obtain rfl : c = d := by simpa using hd
        exact Or.inl (List.mem_map.mpr ⟨(q, n), hq, rfl⟩)
      | succ j =>
        exact Or.inr ⟨j, d, q, by simpa using hd, hq, by rw [Nat.add_right_comm, Nat.add_assoc]⟩

/-- A node is listed behind a path exactly when the path leads to it. -/
theorem mem_places_iff {t n : Tree} {p : List Nat} : (p, n) ∈ t.places ↔ t.at? p = some n := by
  induction t using Tree.induction generalizing p with
  | node l cs ih =>
    rw [places, List.mem_cons, mem_placesFrom]
    cases p with
    | nil =>
      simp [at?, eq_comm]
    | cons i p =>
      simp only [at?, children, Option.bind_eq_some_iff]
      constructor
      · rintro (h | ⟨j, c, q, hc, hq, hp⟩)
        · cases (Prod.mk.inj h).1
        · obtain ⟨rfl, rfl⟩ := List.cons.inj hp
          rw [Nat.zero_add]
          exact ⟨c, hc, (ih c (List.mem_of_getElem? hc)).mp hq⟩
      · rintro ⟨c, hc, hq⟩
        exact Or.inr ⟨i, c, p, hc, (ih c (List.mem_of_getElem? hc)).mpr hq, by rw [Nat.zero_add]⟩

theorem pairwise_placesFrom {i : Nat} {cs : List Tree}
    (h : ∀ c ∈ cs, c.places.Pairwise fun v w => v.1 < w.1) :
    (placesFrom i cs).Pairwise fun v w => v.1 < w.1 := by
  induction cs generalizing i with
  | nil => exact .nil
  | cons c cs ih =>
    rw [placesFrom, List.pairwise_append]
    refine ⟨?_, ih fun d hd => h d (List.mem_cons_of_mem c hd), ?_⟩
    · rw [List.pairwise_map]
      exact (h c List.mem_cons_self).imp fun hlt => List.cons_lt_cons_iff.mpr (Or.inr ⟨rfl, hlt⟩)
    · rintro ⟨p, m⟩ hp ⟨q, n⟩ hq
      obtain ⟨v, -, heq⟩ := List.mem_map.mp hp
      obtain ⟨rfl, -⟩ := Prod.mk.inj heq
      obtain ⟨j, -, r, -, -, rfl⟩ := mem_placesFrom.mp hq
      exact List.cons_lt_cons_iff.mpr (Or.inl (by omega))

/-- The pre-order is the lexicographic order of the paths. -/
theorem pairwise_places (t : Tree) : t.places.Pairwise fun v w => v.1 < w.1 := by
  induction t using Tree.induction with
  | node l cs ih =>
    rw [places, List.pairwise_cons]
    refine ⟨?_, pairwise_placesFrom ih⟩
    rintro ⟨p, n⟩ hp
    obtain ⟨j, -, q, -, -, rfl⟩ := mem_placesFrom.mp hp
    exact List.nil_lt_cons _ _

/-- A path comes before the paths that lead on from it. -/
theorem lt_append_of_ne_nil {p q : List Nat} (h : q ≠ []) : p < p ++ q := by
  induction p with
  | nil =>
    obtain ⟨i, q, rfl⟩ := List.exists_cons_of_ne_nil h
    exact List.nil_lt_cons i q
  | cons i p ih => exact List.cons_lt_cons_iff.mpr (Or.inr ⟨rfl, ih⟩)

end Triage.Python.Tree
