import Mathlib.Data.List.Forall2
import Triage.Proofs.PaddedExtraction

/-!
# Expressions put in parentheses

A callee, the object of an attribute and the expression of a decorator mean the same within
parentheses. `Enclosed` relates a tree to the trees that have parentheses around any of these, with
comments inside, while the other nodes keep what is read of them. A walk over such a tree passes the
nodes of the first one in the same order, with the parentheses between them.
-/

namespace Triage.Python

/-- A pair of parentheses, and the comments before and behind what stands in it. -/
structure Parentheses where
  place : Place
  opening : Place
  before : List Place
  behind : List Place
  closing : Place
deriving Repr

namespace Parentheses

/-- One of the two marks. -/
def mark (text : String) (p : Place) : Tree :=
  .node { kind := .token text, start := p.start, stop := p.stop, row := p.row } []

def front (w : Parentheses) : List Tree :=
  mark "(" w.opening :: w.before.map fun p => (Padding.comment p).leaf

def back (w : Parentheses) : List Tree :=
  (w.behind.map fun p => (Padding.comment p).leaf) ++ [mark ")" w.closing]

/-- The parentheses around a tree; they fill the given field. -/
def around (w : Parentheses) (field : Option Field) (t : Tree) : Tree :=
  .node
    { kind := .parenthesizedExpression, field := field, start := w.place.start,
      stop := w.place.stop, row := w.place.row }
    (w.front ++ t :: w.back)

/-- A tree within parentheses that fill no field, the last ones innermost. -/
def nest (ws : List Parentheses) (t : Tree) : Tree := ws.foldr (fun w u => w.around none u) t

@[simp] theorem kind_around (w : Parentheses) (field : Option Field) (t : Tree) :
    (w.around field t).kind = .parenthesizedExpression := rfl

@[simp] theorem nest_cons (w : Parentheses) (ws : List Parentheses) (t : Tree) :
    nest (w :: ws) t = w.around none (nest ws t) := rfl

/-- Beside what stands in parentheses there are only marks and comments. -/
theorem eq_of_mem_beside {w : Parentheses} {c : Tree} (hc : c ∈ w.front ++ w.back) :
    (∃ text p, c = mark text p) ∨ ∃ p, c = (Padding.comment p).leaf := by
  simp only [front, back, List.mem_append, List.mem_cons, List.mem_map, List.not_mem_nil,
    or_false] at hc
  rcases hc with (rfl | ⟨p, -, rfl⟩) | ⟨p, -, rfl⟩ | rfl
  · exact Or.inl ⟨_, _, rfl⟩
  · exact Or.inr ⟨p, rfl⟩
  · exact Or.inr ⟨p, rfl⟩
  · exact Or.inl ⟨_, _, rfl⟩

theorem showsExpression_beside {w : Parentheses} {c : Tree} (hc : c ∈ w.front ++ w.back) :
    c.kind.showsExpression = false := by
  rcases eq_of_mem_beside hc with ⟨_, _, rfl⟩ | ⟨_, rfl⟩ <;> rfl

theorem find?_children_around (w : Parentheses) (field : Option Field) (t : Tree) :
    (w.around field t).children.find? (fun c => c.kind.showsExpression) =
      if t.kind.showsExpression then some t else none := by
  have hfront : w.front.find? (fun c => c.kind.showsExpression) = none := by
    rw [List.find?_eq_none]
    intro c hc
    simp [showsExpression_beside (List.mem_append_left w.back hc)]
  have hback : w.back.find? (fun c => c.kind.showsExpression) = none := by
    rw [List.find?_eq_none]
    intro c hc
    simp [showsExpression_beside (List.mem_append_right w.front hc)]
  have hchildren : (w.around field t).children = w.front ++ t :: w.back := rfl
  rw [hchildren, List.find?_append, hfront, Option.none_or, List.find?_cons, hback]
  cases t.kind.showsExpression <;> rfl

theorem unparenthesized_around (w : Parentheses) (field : Option Field) (t : Tree) :
    (w.around field t).unparenthesized =
      if t.kind.showsExpression then t.unparenthesized else w.around field t := by
  rw [Tree.unparenthesized_eq (kind_around w field t), find?_children_around]
  cases t.kind.showsExpression <;> rfl

/-- Any number of parentheses around an expression are taken off. -/
theorem unparenthesized_nest (w : Parentheses) (ws : List Parentheses) (field : Option Field)
    {t : Tree} (h : t.kind.showsExpression = true) :
    (w.around field (nest ws t)).unparenthesized = t.unparenthesized := by
  induction ws generalizing w field with
  | nil => rw [nest, List.foldr_nil, unparenthesized_around, if_pos h]
  | cons w' ws ih =>
    have hshows : (w'.around none (nest ws t)).kind.showsExpression = true := rfl
    rw [nest_cons, unparenthesized_around, if_pos hshows, ih]

/-- Around what is no expression, the innermost parentheses stay. -/
theorem kind_unparenthesized_nest (w : Parentheses) (ws : List Parentheses) (field : Option Field)
    {t : Tree} (h : t.kind.showsExpression = false) :
    (w.around field (nest ws t)).unparenthesized.kind = .parenthesizedExpression := by
  induction ws generalizing w field with
  | nil =>
    rw [nest, List.foldr_nil, unparenthesized_around, if_neg (by simp [h])]
    rfl
  | cons w' ws ih =>
    have hshows : (w'.around none (nest ws t)).kind.showsExpression = true := rfl
    rw [nest_cons, unparenthesized_around, if_pos hshows, ih]

end Parentheses

/-- What stays of a label when the source changes: its kind, the row of calls and functions, and the
texts that are read, those of handlers among them. -/
structure Label.ReadsAs (source source' : String) (l l' : Label) : Prop where
  kind : l'.kind = l.kind
  row : l.kind = .call ∨ l.kind = .functionDefinition → l'.row = l.row
  text : l.IsRead ∨ l.field = some .name →
    textBetween source' l'.start l'.stop = textBetween source l.start l.stop

instance (source source' : String) (l l' : Label) : Decidable (l.ReadsAs source source' l') :=
  decidable_of_iff
    (l'.kind = l.kind ∧ (l.kind = .call ∨ l.kind = .functionDefinition → l'.row = l.row) ∧
      (l.IsRead ∨ l.field = some .name →
        textBetween source' l'.start l'.stop = textBetween source l.start l.stop))
    ⟨fun h => ⟨h.1, h.2.1, h.2.2⟩, fun h => ⟨h.kind, h.row, h.text⟩⟩

/-- The children that may be put in parentheses, by the kind of their parent. -/
inductive MayBeEnclosed : Kind → Tree → Prop
  | callee {c : Tree} (field : c.field = some .function) : MayBeEnclosed .call c
  | object {c : Tree} (field : c.field = some .object) : MayBeEnclosed .attribute c
  | decorator {c : Tree} (expression : c.kind.showsExpression = true) : MayBeEnclosed .decorator c
  | inside {c : Tree} (expression : c.kind.showsExpression = true) :
      MayBeEnclosed .parenthesizedExpression c

/-- Whether a child of a node of some kind holds the arguments of a call. -/
def holdsArguments (parent : Kind) (c : Tree) : Bool :=
  parent == .call && c.field == some .arguments

mutual
/-- Nodes of which the second one has parentheses around some descendants. In a node that holds the
arguments of a call each child is an argument, whatever else it might be, and stays as it is; in the
grammar such a node has no callee, no object and no expression of a decorator. -/
inductive Enclosed (source source' : String) : Bool → Tree → Tree → Prop
  | node {arguments : Bool} {l l' : Label} {cs ds : List Tree} (label : l.ReadsAs source source' l')
      (children : EnclosedAll source source' arguments l.kind cs ds) :
      Enclosed source source' arguments (.node l cs) (.node l' ds)
/-- The same for the children of a node of some kind. -/
inductive EnclosedAll (source source' : String) : Bool → Kind → List Tree → List Tree → Prop
  | nil {arguments : Bool} {parent : Kind} : EnclosedAll source source' arguments parent [] []
  | bare {arguments : Bool} {parent : Kind} {c d : Tree} {cs ds : List Tree}
      (first : Enclosed source source' (holdsArguments parent c) c d) (field : d.field = c.field)
      (rest : EnclosedAll source source' arguments parent cs ds) :
      EnclosedAll source source' arguments parent (c :: cs) (d :: ds)
  | within {parent : Kind} {c d : Tree} {cs ds : List Tree} (w : Parentheses)
      (ws : List Parentheses) (place : MayBeEnclosed parent c)
      (first : Enclosed source source' (holdsArguments parent c) c d) (field : d.field = none)
      (rest : EnclosedAll source source' false parent cs ds) :
      EnclosedAll source source' false parent (c :: cs)
        (w.around c.field (Parentheses.nest ws d) :: ds)
end

/-- A child of a node, and the same child with parentheses around some descendants or itself. -/
inductive ChildEnclosed (source source' : String) (arguments : Bool) (parent : Kind) (c : Tree) :
    Tree → Prop
  | bare {d : Tree} (first : Enclosed source source' (holdsArguments parent c) c d)
      (field : d.field = c.field) : ChildEnclosed source source' arguments parent c d
  | within {d : Tree} (w : Parentheses) (ws : List Parentheses) (free : arguments = false)
      (place : MayBeEnclosed parent c)
      (first : Enclosed source source' (holdsArguments parent c) c d) (field : d.field = none) :
      ChildEnclosed source source' arguments parent c (w.around c.field (Parentheses.nest ws d))

variable {source source' : String} {arguments : Bool} {parent : Kind} {c d t t' : Tree}

theorem forall₂_of_enclosedAll {cs ds : List Tree}
    (h : EnclosedAll source source' arguments parent cs ds) :
    List.Forall₂ (ChildEnclosed source source' arguments parent) cs ds := by
  induction cs generalizing ds with
  | nil =>
    cases h
    exact .nil
  | cons c cs ih =>
    cases h with
    | bare first field rest => exact .cons (.bare first field) (ih rest)
    | within w ws place first field rest => exact .cons (.within w ws rfl place first field) (ih rest)

namespace Enclosed

theorem label_readsAs (h : Enclosed source source' arguments t t') :
    t.label.ReadsAs source source' t'.label := by
  cases h with
  | node label _ => exact label

@[simp] theorem kind_eq (h : Enclosed source source' arguments t t') : t'.kind = t.kind :=
  h.label_readsAs.kind

theorem text_eq (h : Enclosed source source' arguments t t')
    (hread : t.label.IsRead ∨ t.field = some .name) : t'.text source' = t.text source :=
  h.label_readsAs.text hread

theorem line_eq (h : Enclosed source source' arguments t t')
    (hrow : t.kind = .call ∨ t.kind = .functionDefinition) : t'.line = t.line := by
  rw [Tree.line, Tree.line, h.label_readsAs.row hrow]

theorem children_enclosed (h : Enclosed source source' arguments t t') :
    List.Forall₂ (ChildEnclosed source source' arguments t.kind) t.children t'.children := by
  cases h with
  | node _ children => exact forall₂_of_enclosedAll children

end Enclosed

namespace ChildEnclosed

theorem field_eq (h : ChildEnclosed source source' arguments parent c d) : d.field = c.field := by
  cases h with
  | bare _ field => exact field
  | within _ _ _ _ _ _ => rfl

/-- A child that may not be put in parentheses has none. -/
theorem enclosed (h : ChildEnclosed source source' arguments parent c d)
    (hplace : arguments = true ∨ ¬ MayBeEnclosed parent c) :
    Enclosed source source' (holdsArguments parent c) c d := by
  cases h with
  | bare first _ => exact first
  | within _ _ free place _ _ =>
    rcases hplace with htrue | hnot
    · rw [free] at htrue
      cases htrue
    · exact absurd place hnot

/-- Where expressions are looked for, a child with parentheses around it still is one. -/
theorem showsExpression_eq (h : ChildEnclosed source source' arguments parent c d)
    (hplace : MayBeEnclosed parent c → c.kind.showsExpression = true) :
    d.kind.showsExpression = c.kind.showsExpression := by
  cases h with
  | bare first _ => rw [first.kind_eq]
  | within _ _ _ place _ _ => rw [hplace place]; rfl

end ChildEnclosed

section Children

variable {α β : Type} {R : α → β → Prop} {p : α → Bool} {q : β → Bool}

/-- Of two lists that are related member by member, the first members that pass a test are
related. -/
theorem find?_related {as : List α} {bs : List β} (h : List.Forall₂ R as bs)
    (hpq : ∀ a b, R a b → q b = p a) :
    as.find? p = none ∧ bs.find? q = none ∨
      ∃ a b, R a b ∧ as.find? p = some a ∧ bs.find? q = some b := by
  induction h with
  | nil => exact Or.inl ⟨rfl, rfl⟩
  | @cons a b as bs hab _ ih =>
    have htest := hpq a b hab
    rw [List.find?_cons, List.find?_cons, htest]
    cases p a with
    | true => exact Or.inr ⟨a, b, hab, rfl, rfl⟩
    | false => exact ih

theorem map_related {γ : Type} {f : α → γ} {g : β → γ} {as : List α} {bs : List β}
    (h : List.Forall₂ R as bs) (hfg : ∀ a b, R a b → g b = f a) : bs.map g = as.map f := by
  induction h with
  | nil => rfl
  | cons hab _ ih => rw [List.map_cons, List.map_cons, hfg _ _ hab, ih]

end Children

namespace Enclosed

/-- The first children that fill a field belong together. -/
theorem childBy? (h : Enclosed source source' arguments t t') (f : Field) :
    t.childBy? f = none ∧ t'.childBy? f = none ∨
      ∃ c d, ChildEnclosed source source' arguments t.kind c d ∧
        t.childBy? f = some c ∧ t'.childBy? f = some d :=
  find?_related h.children_enclosed fun c d hcd => by rw [hcd.field_eq]

/-- Children that fill a field and may not be put in parentheses belong together as they are. -/
theorem childBy?_bare (h : Enclosed source source' arguments t t') {f : Field}
    (hplace : ∀ c : Tree, c.field = some f → ¬ MayBeEnclosed t.kind c) :
    t.childBy? f = none ∧ t'.childBy? f = none ∨
      ∃ c d, Enclosed source source' (holdsArguments t.kind c) c d ∧ c.field = some f ∧
        t.childBy? f = some c ∧ t'.childBy? f = some d := by
  rcases h.childBy? f with hnone | ⟨c, d, hcd, hc, hd⟩
  · exact Or.inl hnone
  · have hfield : c.field = some f := by simpa using List.find?_some hc
    exact Or.inr ⟨c, d, hcd.enclosed (Or.inr (hplace c hfield)), hfield, hc, hd⟩

/-- In parentheses and in decorators, the first expressions belong together. -/
theorem firstExpression (h : Enclosed source source' arguments t t')
    (hkind : t.kind = .parenthesizedExpression ∨ t.kind = .decorator) :
    t.children.find? (fun c => c.kind.showsExpression) = none ∧
        t'.children.find? (fun c => c.kind.showsExpression) = none ∨
      ∃ c d, ChildEnclosed source source' arguments t.kind c d ∧ c.kind.showsExpression = true ∧
        t.children.find? (fun c => c.kind.showsExpression) = some c ∧
        t'.children.find? (fun c => c.kind.showsExpression) = some d := by
  have hshows : ∀ c d, ChildEnclosed source source' arguments t.kind c d →
      d.kind.showsExpression = c.kind.showsExpression := by
    intro c d hcd
    refine hcd.showsExpression_eq fun place => ?_
    rcases hkind with hkind | hkind <;> rw [hkind] at place <;> cases place <;> assumption
  rcases find?_related h.children_enclosed hshows with hnone | ⟨c, d, hcd, hc, hd⟩
  · exact Or.inl hnone
  · have hexpression := List.find?_some hc
    exact Or.inr ⟨c, d, hcd, hexpression, hc, hd⟩

/-- What may be put in parentheses below a list of arguments may be so anywhere. -/
theorem anywhere (h : Enclosed source source' arguments t t') :
    Enclosed source source' false t t' := by
  have hall : ∀ {k : Kind} {cs ds : List Tree}, EnclosedAll source source' arguments k cs ds →
      EnclosedAll source source' false k cs ds := by
    intro k cs
    induction cs with
    | nil =>
      intro ds hds
      cases hds
      exact .nil
    | cons c cs ih =>
      intro ds hds
      cases hds with
      | bare first field rest => exact .bare first field (ih rest)
      | within w ws place first field rest => exact .within w ws place first field (ih rest)
  cases h with
  | node label children => exact .node label (hall children)

/-- Where nothing may be put in parentheses, all children belong together as they are. -/
theorem children_bare (h : Enclosed source source' arguments t t')
    (hplace : arguments = true ∨ ∀ c : Tree, ¬ MayBeEnclosed t.kind c) :
    List.Forall₂ (Enclosed source source' false) t.children t'.children :=
  h.children_enclosed.imp fun c _ hcd =>
    (hcd.enclosed (hplace.imp_right fun hnone => hnone c)).anywhere

/-- Where the grammar has the arguments of a call, nothing may be put in parentheses anyway. -/
theorem arguments_iff (hkind : t.kind = .argumentList ∨ t.kind = .generatorExpression) :
    Enclosed source source' true t t' ↔ Enclosed source source' false t t' := by
  refine ⟨anywhere, fun h => ?_⟩
  have hall : ∀ {k : Kind} {cs ds : List Tree}, k = .argumentList ∨ k = .generatorExpression →
      EnclosedAll source source' false k cs ds → EnclosedAll source source' true k cs ds := by
    intro k cs ds hk
    induction cs generalizing ds with
    | nil =>
      intro hds
      cases hds
      exact .nil
    | cons c cs ih =>
      intro hds
      cases hds with
      | bare first field rest => exact .bare first field (ih rest)
      | within w ws place first field rest => rcases hk with rfl | rfl <;> cases place
  cases h with
  | node label children => exact .node label (hall hkind children)

end Enclosed

mutual
/-- Nodes of which the second one has parentheses around any descendants that may have them, in the
arguments of a call or not. -/
inductive Parenthesized (source source' : String) : Tree → Tree → Prop
  | node {l l' : Label} {cs ds : List Tree} (label : l.ReadsAs source source' l')
      (children : ParenthesizedAll source source' l.kind cs ds) :
      Parenthesized source source' (.node l cs) (.node l' ds)
/-- The same for the children of a node of some kind. -/
inductive ParenthesizedAll (source source' : String) : Kind → List Tree → List Tree → Prop
  | nil {parent : Kind} : ParenthesizedAll source source' parent [] []
  | bare {parent : Kind} {c d : Tree} {cs ds : List Tree}
      (first : Parenthesized source source' c d) (field : d.field = c.field)
      (rest : ParenthesizedAll source source' parent cs ds) :
      ParenthesizedAll source source' parent (c :: cs) (d :: ds)
  | within {parent : Kind} {c d : Tree} {cs ds : List Tree} (w : Parentheses)
      (ws : List Parentheses) (place : MayBeEnclosed parent c)
      (first : Parenthesized source source' c d) (field : d.field = none)
      (rest : ParenthesizedAll source source' parent cs ds) :
      ParenthesizedAll source source' parent (c :: cs)
        (w.around c.field (Parentheses.nest ws d) :: ds)
end

/-- In the grammar the arguments of a call are a list of arguments or a generator. -/
def Tree.ArgumentsAsInGrammar (t : Tree) : Prop :=
  ∀ n ∈ t.nodes, n.kind = .call → ∀ c ∈ n.children, c.field = some .arguments →
    c.kind = .argumentList ∨ c.kind = .generatorExpression

/-- In a tree of the grammar it does not matter where parentheses are put. -/
theorem Parenthesized.enclosed (h : Parenthesized source source' t t')
    (hgrammar : t.ArgumentsAsInGrammar) : Enclosed source source' false t t' := by
  induction t using Tree.induction generalizing t' with
  | node l cs ih =>
    have hchild : ∀ c ∈ cs, ∀ d, Parenthesized source source' c d →
        Enclosed source source' (holdsArguments l.kind c) c d := by
      intro c hc d hcd
      have hfree := ih c hc hcd fun n hn => hgrammar n (Tree.mem_nodes_of_child hc hn)
      cases harguments : holdsArguments l.kind c with
      | false => exact hfree
      | true =>
        obtain ⟨hcall, hfield⟩ := Bool.and_eq_true_iff.mp harguments
        exact (Enclosed.arguments_iff (hgrammar _ (Tree.self_mem_nodes _) (eq_of_beq hcall) c hc
          (eq_of_beq hfield))).mpr hfree
    have hall : ∀ {part ds : List Tree}, (∀ c ∈ part, c ∈ cs) →
        ParenthesizedAll source source' l.kind part ds →
        EnclosedAll source source' false l.kind part ds := by
      intro part
      induction part with
      | nil =>
        intro ds _ hds
        cases hds
        exact .nil
      | cons c part ihpart =>
        intro ds hpart hds
        have hc := hpart c List.mem_cons_self
        have hrest := fun e he => hpart e (List.mem_cons_of_mem c he)
        cases hds with
        | bare first field rest => exact .bare (hchild c hc _ first) field (ihpart hrest rest)
        | within w ws place first field rest =>
          exact .within w ws place (hchild c hc _ first) field (ihpart hrest rest)
    cases h with
    | node label children => exact .node label (hall (fun _ hc => hc) children)

/-- What two nodes are within their parentheses: they belong together, or nothing in them is an
expression. -/
def SameWithin (source source' : String) (t t' : Tree) : Prop :=
  Enclosed source source' false t t' ∨
    t.kind.showsExpression = false ∧ t'.kind = .parenthesizedExpression

/-- An expression in parentheses is that expression, once they are taken off. -/
theorem ChildEnclosed.inner (h : ChildEnclosed source source' arguments parent c d)
    (hshows : c.kind.showsExpression = true) :
    ∃ e, Enclosed source source' (holdsArguments parent c) c e ∧
      d.unparenthesized = e.unparenthesized := by
  cases h with
  | bare first _ => exact ⟨d, first, rfl⟩
  | @within e w ws _ _ first _ =>
    exact ⟨e, first, Parentheses.unparenthesized_nest w ws _ (first.kind_eq ▸ hshows)⟩

theorem Enclosed.unparenthesized (h : Enclosed source source' arguments t t') :
    Enclosed source source' false t.unparenthesized t'.unparenthesized := by
  -- on the first tree: the second one may have any number of parentheses more at each step
  induction t using Tree.induction generalizing arguments t' with
  | node l cs ih =>
    by_cases hkind : (Tree.node l cs).kind = .parenthesizedExpression
    · rw [Tree.unparenthesized_eq hkind, Tree.unparenthesized_eq (h.kind_eq.trans hkind)]
      rcases h.firstExpression (Or.inl hkind) with ⟨hc, hd⟩ | ⟨c, d, hcd, hshows, hc, hd⟩
      · rw [hc, hd]
        exact h.anywhere
      · obtain ⟨e, hce, he⟩ := hcd.inner hshows
        rw [hc, hd, Option.map_some, Option.map_some, Option.getD_some, Option.getD_some, he]
        exact ih c (List.mem_of_find?_eq_some hc) hce
    · rw [Tree.unparenthesized_of_ne hkind, Tree.unparenthesized_of_ne (h.kind_eq.symm ▸ hkind)]
      exact h.anywhere

/-- Within their parentheses, a child and its other self are the same. -/
theorem ChildEnclosed.unparenthesized (h : ChildEnclosed source source' arguments parent c d) :
    SameWithin source source' c.unparenthesized d.unparenthesized := by
  cases hshows : c.kind.showsExpression with
  | true =>
    obtain ⟨e, hce, he⟩ := h.inner hshows
    rw [he]
    exact Or.inl hce.unparenthesized
  | false =>
    cases h with
    | bare first _ => exact Or.inl first.unparenthesized
    | @within d w ws _ _ first _ =>
      have hself : c.unparenthesized = c := by
        apply Tree.unparenthesized_of_ne
        intro hkind
        rw [hkind] at hshows
        cases hshows
      have hd : d.kind.showsExpression = false := by rw [first.kind_eq, hshows]
      rw [hself]
      exact Or.inr ⟨hshows, Parentheses.kind_unparenthesized_nest w ws _ hd⟩

section Names

/-- The text of the member that an attribute reads. -/
theorem Enclosed.memberText (h : Enclosed source source' arguments t t')
    (hkind : t.kind = .attribute) :
    (t'.childBy? .attribute).map (·.text source') =
      (t.childBy? .attribute).map (·.text source) := by
  have hplace : ∀ c : Tree, c.field = some .attribute → ¬ MayBeEnclosed t.kind c := by
    intro c hfield place
    rw [hkind] at place
    cases place with
    | object field =>
      rw [field] at hfield
      cases hfield
  rcases h.childBy?_bare hplace with ⟨hm, hm'⟩ | ⟨m, m', hmember, hfield, hm, hm'⟩
  · rw [hm, hm']
    rfl
  · rw [hm, hm']
    exact congrArg some (hmember.text_eq (Or.inl (Or.inr (Or.inr hfield))))

/-- The text of a name. -/
def Tree.identifier? (source : String) (t : Tree) : Option String :=
  if t.kind = .identifier then some (t.text source) else none

theorem Tree.simpleName?_eq (source : String) (t : Tree) :
    t.simpleName? source =
      if t.unparenthesized.kind = .attribute then
        (t.unparenthesized.childBy? .object).bind fun object =>
          ((t.unparenthesized.childBy? .attribute).map (·.text source)).bind fun member =>
            (object.unparenthesized.identifier? source).map (· ++ "." ++ member)
      else t.unparenthesized.identifier? source := by
  rw [simpleName?]
  split
  · rename_i hkind
    rw [if_neg (by rw [hkind]; decide), identifier?, if_pos hkind]
  · rename_i hkind
    rw [if_pos hkind]
    cases t.unparenthesized.childBy? .object with
    | none => rfl
    | some object =>
      cases t.unparenthesized.childBy? .attribute with
      | none => rfl
      | some member =>
        simp only [identifier?, Option.bind_some, Option.map_some]
        split <;> rfl
  · rename_i hidentifier hattribute
    rw [if_neg hattribute, identifier?, if_neg hidentifier]

/-- What has no expression in its parentheses is neither a name nor an attribute. -/
theorem kind_ne_of_hidden (h : t.kind.showsExpression = false ∧ t'.kind = .parenthesizedExpression)
    {k : Kind} (hk : k.showsExpression = true) (hne : k ≠ .parenthesizedExpression) :
    t.kind ≠ k ∧ t'.kind ≠ k := by
  constructor
  · rintro rfl
    rw [h.1] at hk
    cases hk
  · rintro rfl
    exact hne h.2

theorem SameWithin.identifier? (h : SameWithin source source' t t') :
    t'.identifier? source' = t.identifier? source := by
  rw [Tree.identifier?, Tree.identifier?]
  rcases h with h | hhidden
  · rw [h.kind_eq]
    split
    · rename_i hkind
      rw [h.text_eq (Or.inl (Or.inl hkind))]
    · rfl
  · obtain ⟨hne, hne'⟩ := kind_ne_of_hidden (k := .identifier) hhidden rfl (by decide)
    rw [if_neg hne, if_neg hne']

namespace ChildEnclosed

/-- A callee keeps its name. -/
theorem simpleName?_eq (h : ChildEnclosed source source' arguments parent c d) :
    d.simpleName? source' = c.simpleName? source := by
  rw [Tree.simpleName?_eq, Tree.simpleName?_eq, h.unparenthesized.identifier?]
  rcases h.unparenthesized with hwithin | hhidden
  · rw [hwithin.kind_eq]
    split
    · rename_i hkind
      rw [hwithin.memberText hkind]
      rcases hwithin.childBy? .object with ⟨ho, ho'⟩ | ⟨o, o', hobject, ho, ho'⟩
      · rw [ho, ho']
        rfl
      · rw [ho, ho', Option.bind_some, Option.bind_some, hobject.unparenthesized.identifier?]
    · rfl
  · obtain ⟨hne, hne'⟩ := kind_ne_of_hidden (k := .attribute) hhidden rfl (by decide)
    rw [if_neg hne, if_neg hne']

theorem calleeLabel_eq (h : ChildEnclosed source source' arguments parent c d) :
    d.calleeLabel source' = c.calleeLabel source := by
  rw [Tree.calleeLabel_eq_getD, Tree.calleeLabel_eq_getD, h.simpleName?_eq]
  congr 1
  rcases h.unparenthesized with hwithin | hhidden
  · rw [hwithin.kind_eq]
    split
    · rename_i hkind
      rw [hwithin.memberText hkind]
    · rfl
  · obtain ⟨hne, hne'⟩ := kind_ne_of_hidden (k := .attribute) hhidden rfl (by decide)
    rw [if_neg hne, if_neg hne']

end ChildEnclosed

end Names

section Calls

theorem filter_enclosed {cs ds : List Tree} (q : Kind → Bool)
    (h : List.Forall₂ (Enclosed source source' arguments) cs ds) :
    List.Forall₂ (Enclosed source source' arguments) (cs.filter fun c => q c.kind)
      (ds.filter fun d => q d.kind) :=
  List.rel_filter (fun _ _ hcd => by simp [hcd.kind_eq]) h

theorem Enclosed.callLabel_eq (h : Enclosed source source' arguments t t') :
    t'.callLabel source' = t.callLabel source := by
  rw [Tree.callLabel, Tree.callLabel]
  rcases h.childBy? .function with ⟨hf, hf'⟩ | ⟨f, f', hcallee, hf, hf'⟩
  · rw [hf, hf']
    rfl
  · rw [hf, hf']
    exact congrArg (fun label => (some label).getD Tree.unknownCallee) hcallee.calleeLabel_eq

/-- Arguments are in no parentheses of their own. -/
theorem Enclosed.positionalArguments_enclosed (h : Enclosed source source' arguments t t')
    (hkind : t.kind = .call) :
    List.Forall₂ (Enclosed source source' false) t.positionalArguments t'.positionalArguments := by
  have hplace : ∀ c : Tree, c.field = some .arguments → ¬ MayBeEnclosed t.kind c := by
    intro c hfield place
    rw [hkind] at place
    cases place with
    | callee field =>
      rw [field] at hfield
      cases hfield
  rw [Tree.positionalArguments, Tree.positionalArguments]
  rcases h.childBy?_bare hplace with ⟨ha, ha'⟩ | ⟨a, a', harguments, hfield, ha, ha'⟩
  · rw [ha, ha']
    exact .nil
  · have hholds : holdsArguments t.kind a = true := by simp [holdsArguments, hkind, hfield]
    rw [hholds] at harguments
    simp only [ha, ha', harguments.kind_eq]
    split
    · exact .cons harguments.anywhere .nil
    · rw [Tree.filter_isPositional, Tree.filter_isPositional]
      exact filter_enclosed Kind.isArgument (harguments.children_bare (Or.inl rfl))

/-- A string has the same value. -/
theorem Enclosed.stringValue?_eq (h : Enclosed source source' arguments t t') :
    t'.stringValue? source' = t.stringValue? source := by
  rw [Tree.stringValue?, Tree.stringValue?, h.kind_eq]
  split
  · rename_i hkind
    rw [h.text_eq (Or.inl (Or.inr (Or.inl hkind)))]
  · rename_i hkind
    have hplace : ∀ c : Tree, ¬ MayBeEnclosed t.kind c := by
      intro c place
      rw [hkind] at place
      cases place
    have hpieces := filter_enclosed Kind.showsExpression (h.children_bare (Or.inr hplace))
    have hvalues := map_related hpieces
      (f := fun c => if c.kind = .string then decodeLiteral (c.text source) else none)
      (g := fun d => if d.kind = .string then decodeLiteral (d.text source') else none) ?_
    · rw [Tree.filter_pieces, Tree.filter_pieces]
      have hmapM : ∀ (f : Tree → Option String) (as : List Tree),
          as.mapM f = (as.map f).mapM id := by
        intro f as
        rw [List.mapM_map]
        rfl
      simp only []
      rw [hmapM, hmapM, hvalues]
    · intro c d hcd
      rw [hcd.kind_eq]
      split
      · rename_i hstring
        rw [hcd.text_eq (Or.inl (Or.inr (Or.inl hstring)))]
      · rfl
  · rfl

theorem Enclosed.callRecord?_eq (h : Enclosed source source' arguments t t')
    (hkind : t.kind = .call) : t'.callRecord? source' = t.callRecord? source := by
  have hlength := (h.positionalArguments_enclosed hkind).length_eq
  have hline := h.line_eq (Or.inl hkind)
  rcases h.childBy? .function with ⟨hf, hf'⟩ | ⟨f, f', hcallee, hf, hf'⟩
  · simp [Tree.callRecord?, hf, hf']
  · simp [Tree.callRecord?, hf, hf', hcallee.simpleName?_eq, hlength, hline]

theorem Enclosed.callEvent_eq (h : Enclosed source source' arguments t t')
    (hkind : t.kind = .call) (file : String) :
    t'.callEvent source' file = t.callEvent source file := by
  rw [Tree.callEvent, Tree.callEvent, h.line_eq (Or.inl hkind), h.callLabel_eq,
    (h.positionalArguments_enclosed hkind).length_eq]

/-- A call registers the same pattern. -/
theorem Enclosed.routePattern?_eq (h : Enclosed source source' arguments t t')
    (hkind : t.kind = .call) (rule : RouteRule) :
    t'.routePattern? source' rule = t.routePattern? source rule := by
  have hvalue : t'.positionalArguments.head?.bind (·.stringValue? source') =
      t.positionalArguments.head?.bind (·.stringValue? source) := by
    have harguments := h.positionalArguments_enclosed hkind
    generalize t.positionalArguments = as, t'.positionalArguments = bs at harguments ⊢
    cases harguments with
    | nil => rfl
    | cons hargument _ => exact hargument.stringValue?_eq
  rw [PaddedTree.routePattern?_eq, PaddedTree.routePattern?_eq, hvalue]
  rcases h.childBy? .function with ⟨hf, hf'⟩ | ⟨f, f', hcallee, hf, hf'⟩
  · rw [hf, hf']
    rfl
  · rw [hf, hf', Option.bind_some, Option.bind_some]
    rcases hcallee.unparenthesized with hwithin | hhidden
    · rw [hwithin.kind_eq]
      split
      · rename_i hattribute
        rw [hwithin.memberText hattribute]
      · rfl
    · obtain ⟨hne, hne'⟩ := kind_ne_of_hidden (k := .attribute) hhidden rfl (by decide)
      rw [if_neg hne, if_neg hne']

end Calls

section Decorators

/-- Calls that belong together. -/
def SameCall (source source' : String) (call call' : Tree) : Prop :=
  call.kind = .call ∧ Enclosed source source' false call call'

theorem Enclosed.decoratorCall? (h : Enclosed source source' arguments t t') :
    Option.Rel (SameCall source source') t.decoratorCall? t'.decoratorCall? := by
  rw [Tree.decoratorCall?, Tree.decoratorCall?, h.kind_eq]
  split
  · rename_i hkind
    rw [Tree.decoratorExpression?_eq, Tree.decoratorExpression?_eq]
    rcases h.firstExpression (Or.inr hkind) with ⟨hc, hd⟩ | ⟨c, d, hcd, hshows, hc, hd⟩
    · rw [hc, hd]
      exact .none
    · obtain ⟨e, hce, he⟩ := hcd.inner hshows
      have hwithin := hce.unparenthesized
      rw [hc, hd, Option.map_some, Option.map_some, he, Option.filter_some, Option.filter_some,
        hwithin.kind_eq]
      split
      · rename_i hcall
        exact .some ⟨eq_of_beq hcall, hwithin⟩
      · exact .none
  · exact .none

/-- The decorators of a definition make the same calls. -/
theorem Enclosed.decoratorCalls (h : Enclosed source source' arguments t t') :
    List.Forall₂ (SameCall source source') (Tree.decoratorCalls (some t))
      (Tree.decoratorCalls (some t')) := by
  by_cases hkind : t.kind = .decoratedDefinition
  · have hplace : ∀ c : Tree, ¬ MayBeEnclosed t.kind c := by
      intro c place
      rw [hkind] at place
      cases place
    rw [PaddedTree.decoratorCalls_eq hkind, PaddedTree.decoratorCalls_eq (h.kind_eq.trans hkind)]
    exact List.rel_filterMap (fun _ _ hcd => hcd.decoratorCall?) (h.children_bare (Or.inr hplace))
  · have hnone : Tree.decoratorCalls (some t) = [] := if_neg hkind
    have hnone' : Tree.decoratorCalls (some t') = [] := if_neg (h.kind_eq.symm ▸ hkind)
    rw [hnone, hnone']
    exact .nil

/-- The name of a function stands in no parentheses. -/
theorem Enclosed.functionName (h : Enclosed source source' arguments t t')
    (hkind : t.kind = .functionDefinition) :
    t.childBy? .name = none ∧ t'.childBy? .name = none ∨
      ∃ n n' : Tree, t.childBy? .name = some n ∧ t'.childBy? .name = some n' ∧
        n'.text source' = n.text source := by
  have hplace : ∀ c : Tree, c.field = some .name → ¬ MayBeEnclosed t.kind c := by
    intro c _ place
    rw [hkind] at place
    cases place
  rcases h.childBy?_bare hplace with hnone | ⟨n, n', hname, hfield, hn, hn'⟩
  · exact Or.inl hnone
  · exact Or.inr ⟨n, n', hn, hn', hname.text_eq (Or.inr hfield)⟩

end Decorators

end Triage.Python
