import Triage.Proofs.CallEvents
import Triage.Proofs.Padding

/-!
# Reading padded trees

What is read of a single node, with the padding and without it. Comments are passed over wherever
they stand. A joined line is passed over between the parts of a dotted name, but it counts as an
argument, as a piece in a row of strings, and as the expression that stands behind it in
parentheses or in a decorator.
-/

namespace Triage.Python

/-- A node whose text is read wherever it stands: a name, a string, or the member of an
attribute. -/
def Label.IsRead (l : Label) : Prop :=
  l.kind = .identifier ∨ l.kind = .string ∨ l.field = some .attribute

instance (l : Label) : Decidable l.IsRead :=
  inferInstanceAs (Decidable (_ ∨ _ ∨ _))

namespace Tree

/-- An expression that a joined line hides: it is what comes first within the parentheses. -/
def isHidden (t : Tree) : Bool := t.unparenthesized.kind == .lineContinuation

theorem firstInside_eq (cs : List Tree) :
    firstInside cs = (cs.find? fun t => t.kind.showsExpression).map unparenthesized := by
  induction cs with
  | nil => rfl
  | cons c cs ih =>
    have hshows : (c.kind.isNamed && c.kind != .comment) = c.kind.showsExpression := rfl
    rw [firstInside, List.find?_cons, hshows]
    cases hc : c.kind.showsExpression with
    | true => rfl
    | false => simpa using ih

theorem unparenthesized_eq {t : Tree} (h : t.kind = .parenthesizedExpression) :
    t.unparenthesized =
      ((t.children.find? fun c => c.kind.showsExpression).map unparenthesized).getD t := by
  obtain ⟨l, cs⟩ := t
  have hl : l.kind = .parenthesizedExpression := h
  rw [unparenthesized, if_pos hl, firstInside_eq]
  rfl

/-- A hidden callee has no name, and its label says so. -/
theorem name_of_isHidden (source : String) {t : Tree} (h : t.isHidden = true) :
    t.simpleName? source = none ∧ t.calleeLabel source = unknownCallee := by
  have hkind : t.unparenthesized.kind = .lineContinuation := eq_of_beq h
  constructor
  · simp [simpleName?, hkind]
  · simp [calleeLabel, hkind]

theorem simpleName?_of_hidden_object (source : String) {t object : Tree}
    (hkind : t.unparenthesized.kind = .attribute)
    (hobject : t.unparenthesized.childBy? .object = some object)
    (h : object.isHidden = true) : t.simpleName? source = none := by
  have hline : object.unparenthesized.kind = .lineContinuation := eq_of_beq h
  rw [simpleName?]
  simp only [hkind, hobject]
  cases t.unparenthesized.childBy? .attribute <;> simp [hline]

/-- The label of a callee is its name, or else that of the member it reads. -/
theorem calleeLabel_eq_getD (source : String) (t : Tree) :
    t.calleeLabel source = (t.simpleName? source).getD
      (if t.unparenthesized.kind = .attribute then
        ((t.unparenthesized.childBy? .attribute).map (·.text source)).getD unknownCallee
      else unknownCallee) := by
  rw [calleeLabel]
  split
  · rename_i hkind
    simp [simpleName?, hkind]
  · rename_i hkind
    have hsame : t.unparenthesized.simpleName? source = t.simpleName? source := by
      have hne : t.unparenthesized.kind ≠ .parenthesizedExpression := by rw [hkind]; decide
      rw [simpleName?, unparenthesized_of_ne hne]
      rfl
    rw [hsame, if_pos hkind]
    cases t.simpleName? source <;> rfl
  · rename_i hidentifier hattribute
    have hnone : t.simpleName? source = none := by
      rw [simpleName?]
      split
      · rename_i hkind
        exact absurd hkind hidentifier
      · rename_i hkind
        exact absurd hkind hattribute
      · rfl
    rw [hnone, if_neg hattribute]
    rfl

end Tree

namespace PaddedTree

/-- The nodes of a padded tree keep the texts that are read, from one source to the other. A dotted
name need not, since it is put together from its parts. -/
structure KeepsTexts (source source' : String) (p : PaddedTree) : Prop where
  read : ∀ n ∈ p.nodes, n.label.IsRead → n.full.text source' = n.plain.text source
  handler : ∀ n ∈ p.nodes, n.kind = .functionDefinition → ∀ c ∈ n.childBy? .name,
    c.full.text source' = c.plain.text source

instance (source source' : String) (p : PaddedTree) : Decidable (p.KeepsTexts source source') :=
  decidable_of_iff
    ((∀ n ∈ p.nodes, n.label.IsRead → n.full.text source' = n.plain.text source) ∧
      ∀ n ∈ p.nodes, n.kind = .functionDefinition → ∀ c ∈ n.childBy? .name,
        c.full.text source' = c.plain.text source)
    ⟨fun h => ⟨h.1, h.2⟩, fun h => ⟨h.read, h.handler⟩⟩

mutual
/-- The expression within any number of parentheses, as it is in the plain tree. -/
def inner : PaddedTree → PaddedTree
  | node b l m cs e =>
    if l.kind = .parenthesizedExpression then (firstInner cs).getD (node b l m cs e)
    else node b l m cs e
def firstInner : List PaddedTree → Option PaddedTree
  | [] => none
  | c :: cs => if c.kind.showsExpression then some (inner c) else firstInner cs
end

theorem inner_eq {p : PaddedTree} (h : p.kind = .parenthesizedExpression) :
    p.inner = ((p.children.find? fun c => c.kind.showsExpression).map inner).getD p := by
  have hfirst : ∀ cs : List PaddedTree,
      firstInner cs = (cs.find? fun c => c.kind.showsExpression).map inner := by
    intro cs
    induction cs with
    | nil => rfl
    | cons c cs ih =>
      rw [firstInner, List.find?_cons]
      cases hc : c.kind.showsExpression with
      | true => rfl
      | false => simpa using ih
  obtain ⟨b, l, m, cs, e⟩ := p
  have hl : l.kind = .parenthesizedExpression := h
  rw [inner, if_pos hl, hfirst]
  rfl

theorem inner_of_ne {p : PaddedTree} (h : p.kind ≠ .parenthesizedExpression) : p.inner = p := by
  obtain ⟨b, l, m, cs, e⟩ := p
  exact if_neg h

theorem inner_mem_nodes (p : PaddedTree) : p.inner ∈ p.nodes := by
  induction p using PaddedTree.induction with
  | step p ih =>
    by_cases hl : p.kind = .parenthesizedExpression
    · rw [inner_eq hl]
      cases hc : (p.children.find? fun c => c.kind.showsExpression) with
      | none => exact self_mem_nodes _
      | some c =>
        have hmem : c ∈ p.children := List.mem_of_find?_eq_some hc
        exact mem_nodes_of_child hmem (ih c hmem)
    · rw [inner_of_ne hl]
      exact self_mem_nodes _

theorem inner_plain (p : PaddedTree) : p.plain.unparenthesized = p.inner.plain := by
  induction p using PaddedTree.induction with
  | step p ih =>
    by_cases hl : p.kind = .parenthesizedExpression
    · have hplain : p.plain.kind = .parenthesizedExpression := by rw [kind_plain, hl]
      have hfind : (p.children.map plain).find? (fun t => t.kind.showsExpression) =
          (p.children.find? fun c => c.kind.showsExpression).map plain := by
        rw [List.find?_map]
        congr 2
        funext c
        simp
      rw [Tree.unparenthesized_eq hplain, inner_eq hl, children_plain, hfind]
      cases hc : (p.children.find? fun c => c.kind.showsExpression) with
      | none => rfl
      | some c => exact ih c (List.mem_of_find?_eq_some hc)
    · have hplain : p.plain.kind ≠ .parenthesizedExpression := by rwa [kind_plain]
      rw [inner_of_ne hl, Tree.unparenthesized_of_ne hplain]

theorem unparenthesized_leaf (x : Padding) : x.leaf.unparenthesized = x.leaf := by
  apply Tree.unparenthesized_of_ne
  cases x <;> simp [Padding.leaf, Padding.kind, Tree.kind, Tree.label]

theorem kind_leaf_of_isJoin {x : Padding} (h : x.isJoin = true) :
    x.leaf.kind = .lineContinuation := by
  cases x with
  | comment _ => cases h
  | join _ => rfl

/-- With the padding the expression within parentheses is the same one, or it is hidden. -/
theorem inner_full (p : PaddedTree) :
    p.full.unparenthesized = p.inner.full ∨
      p.full.isHidden = true ∧ ∃ n ∈ p.nodes, n.hasJoin = true := by
  induction p using PaddedTree.induction with
  | step p ih =>
    by_cases hl : p.kind = .parenthesizedExpression
    · have hfull : p.full.kind = .parenthesizedExpression := by rw [kind_full, hl]
      rw [Tree.isHidden, Tree.unparenthesized_eq hfull, inner_eq hl]
      rcases find?_children_full p with hfind | ⟨hjoin, x, hx, hfind⟩
      · rw [hfind]
        cases hc : (p.children.find? fun c => c.kind.showsExpression) with
        | none => exact Or.inl rfl
        | some c =>
          have hmem : c ∈ p.children := List.mem_of_find?_eq_some hc
          rcases ih c hmem with heq | ⟨hhidden, n, hn, hjoin⟩
          · exact Or.inl heq
          · exact Or.inr ⟨hhidden, n, mem_nodes_of_child hmem hn, hjoin⟩
      · refine Or.inr ⟨?_, _, self_mem_nodes _, hjoin⟩
        rw [hfind, Option.map_some, Option.getD_some, unparenthesized_leaf, kind_leaf_of_isJoin hx]
        rfl
    · have hfull : p.full.kind ≠ .parenthesizedExpression := by rwa [kind_full]
      rw [inner_of_ne hl, Tree.unparenthesized_of_ne hfull]
      exact Or.inl rfl

section Names

variable {source source' : String} {p : PaddedTree}

theorem KeepsTexts.of_mem {n : PaddedTree} (h : p.KeepsTexts source source') (hn : n ∈ p.nodes) :
    n.KeepsTexts source source' where
  read m hm := h.read m (mem_nodes_trans p hn hm)
  handler m hm := h.handler m (mem_nodes_trans p hn hm)

theorem KeepsTexts.text (h : p.KeepsTexts source source') (hread : p.label.IsRead) :
    p.full.text source' = p.plain.text source :=
  h.read p (self_mem_nodes p) hread

theorem KeepsTexts.child {c : PaddedTree} (h : p.KeepsTexts source source') (hc : c ∈ p.children) :
    c.KeepsTexts source source' :=
  h.of_mem (mem_nodes_of_child hc (self_mem_nodes c))

theorem field_of_childBy? {f : Field} {c : PaddedTree} (h : p.childBy? f = some c) :
    c.label.field = some f := by
  unfold childBy? at h
  simpa using List.find?_some h

/-- The text of the member that an attribute reads. -/
theorem KeepsTexts.memberText (h : p.KeepsTexts source source') :
    (p.full.childBy? .attribute).map (·.text source') =
      (p.plain.childBy? .attribute).map (·.text source) := by
  rw [childBy?_full, childBy?_plain]
  cases hc : p.childBy? .attribute with
  | none => rfl
  | some c =>
    have hread : c.label.IsRead := Or.inr (Or.inr (field_of_childBy? hc))
    exact congrArg some ((h.child (mem_children_of_childBy? hc)).text hread)

/-- The name of a callee is the same with the padding, unless it is hidden in parentheses, or the
object is whose attribute it is. -/
theorem simpleName?_full (h : p.KeepsTexts source source') :
    p.full.simpleName? source' = p.plain.simpleName? source ∨
      p.full.simpleName? source' = none ∧ (p.full.isHidden = true ∨
        p.inner.kind = .attribute ∧ ∃ o ∈ p.inner.childBy? .object, o.full.isHidden = true) := by
  rcases inner_full p with hinner | ⟨hhidden, -⟩
  · have hmem := inner_mem_nodes p
    rw [Tree.simpleName?, Tree.simpleName?, hinner, inner_plain]
    simp only [kind_full, kind_plain]
    split
    · rename_i hkind
      exact Or.inl (congrArg some ((h.of_mem hmem).text (Or.inl hkind)))
    · rename_i hkind
      have hmember := (h.of_mem hmem).memberText
      rw [childBy?_full, childBy?_plain] at hmember
      rw [childBy?_full, childBy?_full, childBy?_plain, childBy?_plain]
      cases ho : p.inner.childBy? .object with
      | none => exact Or.inl rfl
      | some o =>
        cases hm : p.inner.childBy? .attribute with
        | none => exact Or.inl rfl
        | some m =>
          rw [hm] at hmember
          have htext : m.full.text source' = m.plain.text source := Option.some.inj hmember
          simp only [Option.map_some]
          rcases inner_full o with hobject | ⟨hobject, -⟩
          · left
            rw [hobject, inner_plain, kind_full, kind_plain, htext]
            split
            · rename_i hidentifier
              have hmemo : o.inner ∈ p.inner.nodes :=
                mem_nodes_of_child (mem_children_of_childBy? ho) (inner_mem_nodes o)
              rw [((h.of_mem hmem).of_mem hmemo).text (Or.inl hidentifier)]
            · rfl
          · right
            have hline : o.full.unparenthesized.kind = .lineContinuation := eq_of_beq hobject
            exact ⟨by simp [hline], Or.inr ⟨hkind, o, rfl, hobject⟩⟩
    · exact Or.inl rfl
  · exact Or.inr ⟨(Tree.name_of_isHidden source' hhidden).1, Or.inl hhidden⟩

/-- What a joined line hides of a callee has no name: neither the callee in its parentheses nor the
object in its own. -/
structure KeepsName (source : String) (p : PaddedTree) : Prop where
  callee : p.full.isHidden = true →
    p.plain.simpleName? source = none ∧ p.plain.calleeLabel source = Tree.unknownCallee
  object : p.inner.kind = .attribute → ∀ o ∈ p.inner.childBy? .object, o.full.isHidden = true →
    p.plain.simpleName? source = none

theorem calleeLabel_full (h : p.KeepsTexts source source')
    (hname : p.full.simpleName? source' = p.plain.simpleName? source)
    (hlabel : p.full.isHidden = true → p.plain.calleeLabel source = Tree.unknownCallee) :
    p.full.calleeLabel source' = p.plain.calleeLabel source := by
  rcases inner_full p with hinner | ⟨hhidden, -⟩
  · have hmember := (h.of_mem (inner_mem_nodes p)).memberText
    rw [Tree.calleeLabel_eq_getD, Tree.calleeLabel_eq_getD, hname, hinner, inner_plain, kind_full,
      kind_plain, hmember]
  · rw [(Tree.name_of_isHidden source' hhidden).2, hlabel hhidden]

theorem simpleName?_full_of_hidden_object (hkind : p.inner.kind = .attribute) {o : PaddedTree}
    (ho : p.inner.childBy? .object = some o) (hhidden : o.full.isHidden = true) :
    p.full.simpleName? source' = none := by
  rcases inner_full p with hinner | ⟨hhidden, -⟩
  · have hobject : p.full.unparenthesized.childBy? .object = some o.full := by
      rw [hinner, childBy?_full, ho]
      rfl
    refine Tree.simpleName?_of_hidden_object source' ?_ hobject hhidden
    rw [hinner, kind_full, hkind]
  · exact (Tree.name_of_isHidden source' hhidden).1

/-- The name and the label of a callee are the same with the padding exactly when nothing that has
a name is hidden. -/
theorem name_full_iff (h : p.KeepsTexts source source') :
    (p.full.simpleName? source' = p.plain.simpleName? source ∧
      p.full.calleeLabel source' = p.plain.calleeLabel source) ↔ p.KeepsName source := by
  constructor
  · rintro ⟨hname, hlabel⟩
    constructor
    · intro hhidden
      obtain ⟨hnone, hunknown⟩ := Tree.name_of_isHidden source' hhidden
      exact ⟨hname ▸ hnone, hlabel ▸ hunknown⟩
    · intro hkind o ho hhidden
      exact hname ▸ simpleName?_full_of_hidden_object hkind ho hhidden
  · rintro ⟨hcallee, hobject⟩
    have hname : p.full.simpleName? source' = p.plain.simpleName? source := by
      rcases simpleName?_full h with heq | ⟨hnone, hhidden | ⟨hkind, o, ho, hhidden⟩⟩
      · exact heq
      · rw [hnone, (hcallee hhidden).1]
      · rw [hnone, hobject hkind o ho hhidden]
    exact ⟨hname, calleeLabel_full h hname fun hhidden => (hcallee hhidden).2⟩

end Names

end PaddedTree

end Triage.Python
