import Mathlib.Data.List.Basic
import Triage.Proofs.Traversal

/-!
# Trees with extras put in

Comments and joined lines may stand between any two tokens. A padded tree is a tree together with
more of them, before its nodes and behind the last child of a node. Its plain tree is without the
padding, its full tree with it; there the nodes of the plain tree may stand elsewhere.
-/

namespace Triage.Python

/-- A kind that is taken for an expression where one is looked for: named, and no comment. -/
def Kind.showsExpression (k : Kind) : Bool := k.isNamed && k != .comment

/-- Where a node stands in a source. -/
structure Place where
  start : Nat
  stop : Nat
  row : Nat
deriving DecidableEq, Repr, Inhabited

/-- An extra that is put in. -/
inductive Padding where
  | comment (place : Place)
  /-- A backslash with the line end behind it. -/
  | join (place : Place)
deriving DecidableEq, Repr, Inhabited

namespace Padding

def isJoin : Padding → Bool
  | comment _ => false
  | join _ => true

def kind : Padding → Kind
  | comment _ => .comment
  | join _ => .lineContinuation

def place : Padding → Place
  | comment p => p
  | join p => p

/-- The node of an extra: it has no children and fills no field. -/
def leaf (x : Padding) : Tree :=
  .node { kind := x.kind, start := x.place.start, stop := x.place.stop, row := x.place.row } []

end Padding

/-- A node with the padding before it, its place in the full tree, its children, and the padding
behind the last one of them. -/
inductive PaddedTree where
  | node (before : List Padding) (label : Label) (moved : Place) (children : List PaddedTree)
      (behind : List Padding)
deriving Inhabited

namespace PaddedTree

def before : PaddedTree → List Padding
  | node b _ _ _ _ => b

def label : PaddedTree → Label
  | node _ l _ _ _ => l

def moved : PaddedTree → Place
  | node _ _ m _ _ => m

def children : PaddedTree → List PaddedTree
  | node _ _ _ cs _ => cs

def behind : PaddedTree → List Padding
  | node _ _ _ _ b => b

def kind (p : PaddedTree) : Kind := p.label.kind

/-- The label in the full tree. -/
def fullLabel (p : PaddedTree) : Label :=
  { p.label with start := p.moved.start, stop := p.moved.stop, row := p.moved.row }

mutual
/-- The tree without the padding. -/
def plain : PaddedTree → Tree
  | node _ l _ cs _ => .node l (plainAll cs)
def plainAll : List PaddedTree → List Tree
  | [] => []
  | c :: cs => plain c :: plainAll cs
end

mutual
/-- The tree with the padding. -/
def full : PaddedTree → Tree
  | node _ l m cs behind =>
    .node { l with start := m.start, stop := m.stop, row := m.row }
      (fullAll cs ++ behind.map Padding.leaf)
def fullAll : List PaddedTree → List Tree
  | [] => []
  | c :: cs => c.before.map Padding.leaf ++ full c :: fullAll cs
end

mutual
/-- The nodes that are no padding, in pre-order, each with its parent. -/
def visits (parent? : Option PaddedTree) : PaddedTree → List (Option PaddedTree × PaddedTree)
  | node b l m cs e => (parent?, node b l m cs e) :: visitsAll (node b l m cs e) cs
def visitsAll (parent : PaddedTree) : List PaddedTree → List (Option PaddedTree × PaddedTree)
  | [] => []
  | c :: cs => visits (some parent) c ++ visitsAll parent cs
end

/-- The nodes that are no padding, in pre-order. -/
def nodes (p : PaddedTree) : List PaddedTree := (p.visits none).map (·.2)

/-- The first child that fills a field. -/
def childBy? (f : Field) (p : PaddedTree) : Option PaddedTree :=
  p.children.find? (·.label.field == some f)

/-- The padding among the children. -/
def paddings (p : PaddedTree) : List Padding := p.children.flatMap before ++ p.behind

/-- Whether a joined line is put in among the children. -/
def hasJoin (p : PaddedTree) : Bool := p.paddings.any Padding.isJoin

mutual
/-- What passes from the children to the node holds of every padded tree. -/
theorem induction {motive : PaddedTree → Prop}
    (step : ∀ p : PaddedTree, (∀ c ∈ p.children, motive c) → motive p) : ∀ p, motive p
  | .node b l m cs e => step (.node b l m cs e) (inductionAll step cs)
theorem inductionAll {motive : PaddedTree → Prop}
    (step : ∀ p : PaddedTree, (∀ c ∈ p.children, motive c) → motive p) :
    ∀ cs : List PaddedTree, ∀ c ∈ cs, motive c
  | [], _, hd => nomatch hd
  | c :: cs, d, hd => by
    rcases List.mem_cons.mp hd with hdc | hd
    · exact hdc ▸ induction step c
    · exact inductionAll step cs d hd
end

theorem plainAll_eq_map (cs : List PaddedTree) : plainAll cs = cs.map plain := by
  induction cs with
  | nil => rfl
  | cons c cs ih => rw [plainAll, ih, List.map_cons]

theorem children_plain (p : PaddedTree) : p.plain.children = p.children.map plain := by
  obtain ⟨b, l, m, cs, e⟩ := p
  rw [plain, plainAll_eq_map]
  rfl

theorem children_full (p : PaddedTree) :
    p.full.children = fullAll p.children ++ p.behind.map Padding.leaf := by
  obtain ⟨b, l, m, cs, e⟩ := p
  rfl

theorem label_plain (p : PaddedTree) : p.plain.label = p.label := by
  obtain ⟨b, l, m, cs, e⟩ := p
  rfl

theorem label_full (p : PaddedTree) : p.full.label = p.fullLabel := by
  obtain ⟨b, l, m, cs, e⟩ := p
  rfl

@[simp] theorem kind_plain (p : PaddedTree) : p.plain.kind = p.kind := by
  rw [Tree.kind, label_plain, kind]

@[simp] theorem kind_full (p : PaddedTree) : p.full.kind = p.kind := by
  rw [Tree.kind, label_full, kind, fullLabel]

@[simp] theorem field_plain (p : PaddedTree) : p.plain.field = p.label.field := by
  rw [Tree.field, label_plain]

@[simp] theorem field_full (p : PaddedTree) : p.full.field = p.label.field := by
  rw [Tree.field, label_full, fullLabel]

theorem visits_eq (parent? : Option PaddedTree) (p : PaddedTree) :
    p.visits parent? = (parent?, p) :: p.children.flatMap (visits (some p)) := by
  obtain ⟨b, l, m, cs, e⟩ := p
  have hall : ∀ (parent : PaddedTree) (cs : List PaddedTree),
      visitsAll parent cs = cs.flatMap (visits (some parent)) := by
    intro parent cs
    induction cs with
    | nil => rfl
    | cons c cs ih => rw [visitsAll, ih, List.flatMap_cons]
  rw [visits, hall]
  rfl

theorem map_visits (parent? : Option PaddedTree) (p : PaddedTree) :
    (p.visits parent?).map (·.2) = p.nodes := by
  rw [nodes, visits_eq, visits_eq]
  rfl

theorem nodes_eq (p : PaddedTree) : p.nodes = p :: p.children.flatMap nodes := by
  rw [nodes, visits_eq, List.map_cons, List.map_flatMap]
  simp only [map_visits]

theorem self_mem_nodes (p : PaddedTree) : p ∈ p.nodes := by
  rw [nodes_eq]
  exact List.mem_cons_self

theorem mem_nodes_of_child {p c n : PaddedTree} (hc : c ∈ p.children) (hn : n ∈ c.nodes) :
    n ∈ p.nodes := by
  rw [nodes_eq]
  exact List.mem_cons_of_mem _ (List.mem_flatMap.mpr ⟨c, hc, hn⟩)

theorem mem_nodes_trans {m n : PaddedTree} (p : PaddedTree) (hn : n ∈ p.nodes)
    (hm : m ∈ n.nodes) : m ∈ p.nodes := by
  induction p using PaddedTree.induction with
  | step p ih =>
    rw [nodes_eq] at hn
    rcases List.mem_cons.mp hn with rfl | hn
    · exact hm
    · obtain ⟨c, hc, hn⟩ := List.mem_flatMap.mp hn
      exact mem_nodes_of_child hc (ih c hc hn)

/-- What is made of the children of the full tree, when nothing is made of the padding. -/
theorem flatMap_children_full {β : Type} {g : Tree → List β} {p : PaddedTree}
    (hg : ∀ x ∈ p.paddings, g x.leaf = []) :
    p.full.children.flatMap g = p.children.flatMap fun c => g c.full := by
  have hleaves : ∀ xs : List Padding, (∀ x ∈ xs, g x.leaf = []) →
      (xs.map Padding.leaf).flatMap g = [] := by
    intro xs hxs
    rw [List.flatMap_map, List.flatMap_eq_nil_iff]
    exact hxs
  have hbehind : (p.behind.map Padding.leaf).flatMap g = [] :=
    hleaves p.behind fun x hx => hg x (List.mem_append_right _ hx)
  have hbefore : ∀ c ∈ p.children, (c.before.map Padding.leaf).flatMap g = [] := fun c hc =>
    hleaves c.before fun x hx => hg x (List.mem_append_left _ (List.mem_flatMap.mpr ⟨c, hc, hx⟩))
  rw [children_full, List.flatMap_append, hbehind, List.append_nil]
  generalize p.children = cs at hbefore ⊢
  induction cs with
  | nil => rfl
  | cons c cs ih =>
    rw [fullAll, List.flatMap_append, hbefore c List.mem_cons_self, List.nil_append,
      List.flatMap_cons, List.flatMap_cons, ih fun d hd => hbefore d (List.mem_cons_of_mem c hd)]

/-- The nodes of the plain tree. -/
theorem visits_plain (p : PaddedTree) (parent? : Option PaddedTree) :
    p.plain.visits (parent?.map plain) =
      (p.visits parent?).map fun v => (v.1.map plain, v.2.plain) := by
  induction p using PaddedTree.induction generalizing parent? with
  | step p ih =>
    rw [Tree.visits_eq, visits_eq, List.map_cons, List.map_flatMap, children_plain,
      List.flatMap_map]
    congr 1
    exact List.flatMap_congr fun c hc => ih c hc (some _)

/-- What is made of the nodes of the full tree, when nothing is made of the padding. -/
theorem flatMap_visits_full {β : Type} {f : Option Tree × Tree → List β}
    (hf : ∀ parent? x, f (parent?, Padding.leaf x) = []) (p : PaddedTree)
    (parent? : Option PaddedTree) :
    (p.full.visits (parent?.map full)).flatMap f =
      (p.visits parent?).flatMap fun v => f (v.1.map full, v.2.full) := by
  induction p using PaddedTree.induction generalizing parent? with
  | step p ih =>
    have hleaf : ∀ x, ((Padding.leaf x).visits (some p.full)).flatMap f = [] := by
      intro x
      simp [Padding.leaf, Tree.visits, Tree.visitsAll, ← hf (some p.full) x]
    rw [Tree.visits_eq, visits_eq, List.flatMap_cons, List.flatMap_cons, List.flatMap_assoc,
      List.flatMap_assoc, flatMap_children_full fun x _ => hleaf x]
    congr 1
    exact List.flatMap_congr fun c hc => ih c hc (some _)

theorem flatMap_nodes_plain {β : Type} (f : Tree → List β) (p : PaddedTree) :
    p.plain.nodes.flatMap f = p.nodes.flatMap fun n => f n.plain := by
  rw [Tree.nodes_eq_preorder, ← Tree.map_visits none, nodes, List.flatMap_map, List.flatMap_map]
  have h := congrArg (List.flatMap fun v : Option Tree × Tree => f v.2) (visits_plain p none)
  rwa [List.flatMap_map] at h

theorem flatMap_nodes_full {β : Type} {f : Tree → List β} (hf : ∀ x, f (Padding.leaf x) = [])
    (p : PaddedTree) : p.full.nodes.flatMap f = p.nodes.flatMap fun n => f n.full := by
  rw [Tree.nodes_eq_preorder, ← Tree.map_visits none, nodes, List.flatMap_map, List.flatMap_map]
  exact flatMap_visits_full (fun _ x => hf x) p none

/-- The children of the plain tree that pass a test of kind and field. -/
theorem filter_children_plain (q : Kind → Option Field → Bool) (p : PaddedTree) :
    p.plain.children.filter (fun t => q t.kind t.field) =
      (p.children.filter fun c => q c.kind c.label.field).map plain := by
  rw [children_plain, List.filter_map]
  congr 2
  funext c
  simp

/-- The children of the full tree that pass a test that no padding passes. -/
theorem filter_children_full {q : Kind → Option Field → Bool} {p : PaddedTree}
    (hq : ∀ x ∈ p.paddings, q x.kind none = false) :
    p.full.children.filter (fun t => q t.kind t.field) =
      (p.children.filter fun c => q c.kind c.label.field).map full := by
  have hfilter : ∀ ts : List Tree, ts.filter (fun t => q t.kind t.field) =
      ts.flatMap fun t => if q t.kind t.field then [t] else [] := by
    intro ts
    induction ts with
    | nil => rfl
    | cons t ts ih => cases ht : q t.kind t.field <;> simp [ht, ih]
  have hleaf : ∀ x ∈ p.paddings,
      (if q x.leaf.kind x.leaf.field then [x.leaf] else []) = [] := by
    intro x hx
    exact if_neg (by simpa [Padding.leaf, Tree.kind, Tree.field, Tree.label] using hq x hx)
  rw [hfilter, flatMap_children_full hleaf]
  clear hq hleaf
  induction p.children with
  | nil => rfl
  | cons c cs ih => cases hc : q c.kind c.label.field <;> simpa [hc] using ih

theorem childBy?_plain (f : Field) (p : PaddedTree) :
    p.plain.childBy? f = (p.childBy? f).map plain := by
  have h := filter_children_plain (fun _ field => field == some f) p
  rw [Tree.childBy?, childBy?, ← List.head?_filter, ← List.head?_filter, h, List.head?_map]

theorem childBy?_full (f : Field) (p : PaddedTree) :
    p.full.childBy? f = (p.childBy? f).map full := by
  have h := filter_children_full (q := fun _ field => field == some f) (p := p) fun _ _ => rfl
  rw [Tree.childBy?, childBy?, ← List.head?_filter, ← List.head?_filter, h, List.head?_map]

theorem mem_children_of_childBy? {f : Field} {p c : PaddedTree} (h : p.childBy? f = some c) :
    c ∈ p.children :=
  List.mem_of_find?_eq_some h

theorem showsExpression_padding (x : Padding) : x.kind.showsExpression = x.isJoin := by
  cases x <;> rfl

theorem find?_leaves (xs : List Padding) :
    (xs.map Padding.leaf).find? (fun t => t.kind.showsExpression) =
      (xs.find? Padding.isJoin).map Padding.leaf := by
  rw [List.find?_map]
  congr 2
  funext x
  exact showsExpression_padding x

/-- The first child that stands for an expression is that of the plain tree, unless a joined line
comes before it. -/
theorem find?_children_full (p : PaddedTree) :
    p.full.children.find? (fun t => t.kind.showsExpression) =
        (p.children.find? fun c => c.kind.showsExpression).map full ∨
      p.hasJoin = true ∧ ∃ x : Padding, x.isJoin = true ∧
        p.full.children.find? (fun t => t.kind.showsExpression) = some x.leaf := by
  rw [children_full, hasJoin, paddings]
  induction p.children with
  | nil =>
    rw [fullAll, List.nil_append, find?_leaves]
    cases hx : p.behind.find? Padding.isJoin with
    | none => exact Or.inl rfl
    | some x =>
      have hjoin := List.find?_some hx
      exact Or.inr ⟨List.any_eq_true.mpr ⟨x, List.mem_of_find?_eq_some hx, hjoin⟩, x, hjoin, rfl⟩
  | cons c cs ih =>
    rw [fullAll, List.append_assoc, List.find?_append, find?_leaves, List.flatMap_cons,
      List.append_assoc, List.any_append]
    cases hx : c.before.find? Padding.isJoin with
    | none =>
      rw [Option.map_none, Option.none_or, List.cons_append, List.find?_cons, List.find?_cons,
        kind_full]
      cases hc : c.kind.showsExpression with
      | true => exact Or.inl rfl
      | false =>
        rcases ih with ih | ⟨hjoin, x, hx, ih⟩
        · exact Or.inl ih
        · exact Or.inr ⟨by rw [hjoin, Bool.or_true], x, hx, ih⟩
    | some x =>
      have hjoin := List.find?_some hx
      have hany : c.before.any Padding.isJoin = true :=
        List.any_eq_true.mpr ⟨x, List.mem_of_find?_eq_some hx, hjoin⟩
      exact Or.inr ⟨by rw [hany, Bool.true_or], x, hjoin, rfl⟩

/-- A test that a joined line passes is passed by one child more for each that is put in. -/
theorem length_filter_children_full {q : Kind → Option Field → Bool} {p : PaddedTree}
    (hcomment : q .comment none = false) (hjoin : q .lineContinuation none = true) :
    (p.full.children.filter fun t => q t.kind t.field).length =
      (p.children.filter fun c => q c.kind c.label.field).length +
        p.paddings.countP Padding.isJoin := by
  have hleaves : ∀ xs : List Padding,
      ((xs.map Padding.leaf).filter fun t => q t.kind t.field).length =
        xs.countP Padding.isJoin := by
    intro xs
    rw [List.filter_map, List.length_map, ← List.countP_eq_length_filter]
    congr 1
    funext x
    cases x with
    | comment _ => exact hcomment
    | join _ => exact hjoin
  rw [children_full, paddings, List.filter_append, List.length_append, hleaves,
    List.countP_append]
  have hchildren : ((fullAll p.children).filter fun t => q t.kind t.field).length =
      (p.children.filter fun c => q c.kind c.label.field).length +
        (p.children.flatMap before).countP Padding.isJoin := by
    induction p.children with
    | nil => rfl
    | cons c cs ih =>
      rw [fullAll, List.filter_append, List.length_append, hleaves, List.filter_cons,
        List.filter_cons, kind_full, field_full, List.flatMap_cons, List.countP_append]
      split
      · rw [List.length_cons, List.length_cons, ih]
        omega
      · rw [ih]
        omega
  omega

end PaddedTree

end Triage.Python
