import Mathlib.Data.Option.Basic
import Triage.Proofs.DecoratorAgreement
import Triage.Proofs.PaddedReading

/-!
# Calls and decorators of padded trees

What a joined line does to a call is exact: each one among the arguments counts as one of them, and
one among the pieces of a row of strings takes its value away. A decorator that it hides is no call.
-/

namespace Triage.Python

/-- A kind that counts as a positional argument. -/
def Kind.isArgument (k : Kind) : Bool :=
  (match k with
    | .keywordArgument | .dictionarySplat | .comment => false
    | _ => true) && k.isNamed

namespace Tree

/-- A decorator whose expression is hidden by a joined line. -/
def hidesDecorator (t : Tree) : Bool :=
  t.decoratorExpression?.any (·.kind == .lineContinuation)

theorem filter_isPositional (t : Tree) :
    t.namedChildren.filter isPositional = t.children.filter fun c => c.kind.isArgument := by
  rw [namedChildren, List.filter_filter]
  rfl

theorem filter_pieces (t : Tree) :
    t.namedChildren.filter (·.kind != .comment) =
      t.children.filter fun c => c.kind.showsExpression := by
  rw [namedChildren, List.filter_filter]
  congr 1
  funext c
  exact Bool.and_comm _ _

/-- What comes first, comments apart. -/
theorem find?_namedChildren (t : Tree) :
    t.namedChildren.find? (·.kind != .comment) =
      t.children.find? fun c => c.kind.showsExpression := by
  have hand : ∀ a b : Bool, decide (a = true ∧ b = true) = (a && b) := by decide
  rw [namedChildren, List.find?_filter]
  congr 1
  funext c
  exact hand _ _

theorem decoratorExpression?_eq (t : Tree) :
    t.decoratorExpression? =
      (t.children.find? fun c => c.kind.showsExpression).map unparenthesized := by
  rw [decoratorExpression?, find?_namedChildren]

end Tree

namespace PaddedTree

/-- The arguments of a call, as they are in the plain tree. -/
def arguments (p : PaddedTree) : List PaddedTree :=
  match p.childBy? .arguments with
  | none => []
  | some a =>
    if a.kind = .generatorExpression then [a]
    else a.children.filter fun c => c.kind.isArgument

/-- The number of joined lines that are put in among the arguments of a call. -/
def joinedArguments (p : PaddedTree) : Nat :=
  match p.childBy? .arguments with
  | none => 0
  | some a => if a.kind = .generatorExpression then 0 else a.paddings.countP Padding.isJoin

theorem positionalArguments_plain (p : PaddedTree) :
    p.plain.positionalArguments = p.arguments.map plain := by
  rw [Tree.positionalArguments, childBy?_plain, arguments]
  cases p.childBy? .arguments with
  | none => rfl
  | some a =>
    simp only [Option.map_some, kind_plain]
    split
    · rfl
    · rw [Tree.filter_isPositional]
      exact filter_children_plain (fun k _ => k.isArgument) a

/-- Every joined line among the arguments is one more of them. -/
theorem length_positionalArguments_full (p : PaddedTree) :
    p.full.positionalArguments.length = p.arguments.length + p.joinedArguments := by
  rw [Tree.positionalArguments, childBy?_full, arguments, joinedArguments]
  cases p.childBy? .arguments with
  | none => rfl
  | some a =>
    simp only [Option.map_some, kind_full]
    split
    · rfl
    · rw [Tree.filter_isPositional]
      exact length_filter_children_full (q := fun k _ => k.isArgument) rfl rfl

theorem positionalArguments_full {p : PaddedTree} (h : p.joinedArguments = 0) :
    p.full.positionalArguments = p.arguments.map full := by
  rw [joinedArguments] at h
  rw [Tree.positionalArguments, childBy?_full, arguments]
  cases ha : p.childBy? .arguments with
  | none => rfl
  | some a =>
    rw [ha] at h
    simp only [Option.map_some, kind_full]
    split
    · rfl
    · rename_i hkind
      simp only [hkind, if_false] at h
      rw [Tree.filter_isPositional]
      refine filter_children_full (q := fun k _ => k.isArgument) fun x hx => ?_
      cases x with
      | comment _ => rfl
      | join _ => exact absurd rfl (List.countP_eq_zero.mp h _ hx)

theorem mem_nodes_of_argument {p a : PaddedTree} (h : a ∈ p.arguments) : a ∈ p.nodes := by
  rw [arguments] at h
  cases hc : p.childBy? .arguments with
  | none =>
    rw [hc] at h
    cases h
  | some c =>
    rw [hc] at h
    have hmem : c ∈ p.nodes :=
      mem_nodes_of_child (mem_children_of_childBy? hc) (self_mem_nodes c)
    simp only [] at h
    split at h
    · rwa [List.mem_singleton.mp h]
    · exact mem_nodes_trans p hmem
        (mem_nodes_of_child (List.mem_of_mem_filter h) (self_mem_nodes a))

theorem leaf_mem_children {p : PaddedTree} {x : Padding} (hx : x ∈ p.paddings) :
    x.leaf ∈ p.full.children := by
  rw [children_full, List.mem_append]
  rcases List.mem_append.mp hx with hx | hx
  · left
    obtain ⟨c, hc, hx⟩ := List.mem_flatMap.mp hx
    generalize p.children = cs at hc ⊢
    induction cs with
    | nil => cases hc
    | cons d cs ih =>
      rw [fullAll, List.mem_append]
      rcases List.mem_cons.mp hc with rfl | hc
      · exact Or.inl (List.mem_map_of_mem hx)
      · exact Or.inr (List.mem_cons_of_mem _ (ih hc))
  · exact Or.inr (List.mem_map_of_mem hx)

theorem mapM_eq_none {α β : Type} {f : α → Option β} {as : List α} {a : α} (ha : a ∈ as)
    (hf : f a = none) : as.mapM f = none := by
  induction as with
  | nil => cases ha
  | cons b as ih =>
    rw [List.mapM_cons]
    rcases List.mem_cons.mp ha with rfl | ha
    · simp [hf]
    · cases f b <;> simp [ih ha]

theorem mapM_map_congr {α β γ : Type} {f g : α → β} {k k' : β → Option γ} {as : List α}
    (h : ∀ a ∈ as, k' (f a) = k (g a)) : (as.map f).mapM k' = (as.map g).mapM k := by
  induction as with
  | nil => rfl
  | cons a as ih =>
    rw [List.map_cons, List.map_cons, List.mapM_cons, List.mapM_cons, h a List.mem_cons_self,
      ih fun b hb => h b (List.mem_cons_of_mem a hb)]

/-- The value of a string is the same with the padding, unless a joined line is put in between its
pieces. -/
theorem stringValue?_full {source source' : String} {p : PaddedTree}
    (h : p.KeepsTexts source source') :
    p.full.stringValue? source' =
      if p.kind = .concatenatedString ∧ p.hasJoin = true then none
      else p.plain.stringValue? source := by
  rw [Tree.stringValue?, Tree.stringValue?, kind_full, kind_plain]
  split
  · rename_i hkind
    rw [if_neg (by rw [hkind]; simp), h.text (Or.inr (Or.inl hkind))]
  · rename_i hkind
    rw [Tree.filter_pieces, Tree.filter_pieces]
    cases hjoin : p.hasJoin with
    | true =>
      obtain ⟨x, hx, hisJoin⟩ := List.any_eq_true.mp hjoin
      have hkindLeaf := kind_leaf_of_isJoin hisJoin
      have hmem : x.leaf ∈ p.full.children.filter fun c => c.kind.showsExpression :=
        List.mem_filter.mpr ⟨leaf_mem_children hx, by rw [hkindLeaf]; rfl⟩
      rw [if_pos ⟨hkind, rfl⟩]
      simp only []
      rw [mapM_eq_none hmem (by rw [hkindLeaf]; rfl)]
      rfl
    | false =>
      have hnone : ∀ x ∈ p.paddings, x.kind.showsExpression = false := by
        intro x hx
        rw [showsExpression_padding]
        simpa using List.any_eq_false.mp hjoin x hx
      have hfull := filter_children_full (q := fun k _ => k.showsExpression) hnone
      have hplain := filter_children_plain (fun k _ => k.showsExpression) p
      have hpieces : ∀ c ∈ p.children.filter fun c => c.kind.showsExpression,
          (if c.full.kind = .string then decodeLiteral (c.full.text source') else none) =
            if c.plain.kind = .string then decodeLiteral (c.plain.text source) else none := by
        intro c hc
        rw [kind_full, kind_plain]
        split
        · rename_i hstring
          rw [(h.child (List.mem_of_mem_filter hc)).text (Or.inr (Or.inl hstring))]
        · rfl
      rw [if_neg (by simp), hfull, hplain]
      exact congrArg (Option.map String.join) (mapM_map_congr hpieces)
  · rename_i hstring hrow
    rw [if_neg]
    rintro ⟨hkind, -⟩
    exact hrow hkind

/-- The expression of a decorator, as it is in the plain tree. -/
def expression? (p : PaddedTree) : Option PaddedTree :=
  (p.children.find? fun c => c.kind.showsExpression).map inner

/-- The call that a decorator is, as it is in the plain tree. -/
def call? (p : PaddedTree) : Option PaddedTree :=
  if p.kind = .decorator then p.expression?.filter (·.kind == .call) else none

theorem call?_mem {p call : PaddedTree} (h : p.call? = some call) :
    call ∈ p.nodes ∧ call.kind = .call := by
  unfold call? at h
  split at h
  · obtain ⟨hexpression, hkind⟩ := Option.filter_eq_some_iff.mp h
    obtain ⟨c, hc, rfl⟩ := Option.map_eq_some_iff.mp hexpression
    exact ⟨mem_nodes_of_child (List.mem_of_find?_eq_some hc) (inner_mem_nodes c),
      by simpa using hkind⟩
  · cases h

theorem decoratorExpression?_plain (p : PaddedTree) :
    p.plain.decoratorExpression? = p.expression?.map plain := by
  rw [Tree.decoratorExpression?_eq, children_plain, List.find?_map, expression?]
  have hkind : (fun t : Tree => t.kind.showsExpression) ∘ plain =
      fun c => c.kind.showsExpression := by
    funext c
    simp
  rw [hkind]
  cases p.children.find? fun c => c.kind.showsExpression with
  | none => rfl
  | some c => exact congrArg some (inner_plain c)

/-- The expression of a decorator is the same with the padding, unless it is hidden. -/
theorem decoratorExpression?_full (p : PaddedTree) :
    p.full.decoratorExpression? = p.expression?.map full ∨
      p.full.hidesDecorator = true ∧ ∃ n ∈ p.nodes, n.hasJoin = true := by
  rw [Tree.hidesDecorator, Tree.decoratorExpression?_eq, expression?]
  rcases find?_children_full p with hfind | ⟨hjoin, x, hx, hfind⟩
  · rw [hfind]
    cases hc : p.children.find? fun c => c.kind.showsExpression with
    | none => exact Or.inl rfl
    | some c =>
      rcases inner_full c with hinner | ⟨hhidden, n, hn, hjoin⟩
      · exact Or.inl (congrArg some hinner)
      · exact Or.inr ⟨hhidden, n, mem_nodes_of_child (List.mem_of_find?_eq_some hc) hn, hjoin⟩
  · refine Or.inr ⟨?_, p, self_mem_nodes p, hjoin⟩
    rw [hfind, Option.map_some, unparenthesized_leaf, Option.any_some, kind_leaf_of_isJoin hx]
    rfl

theorem decoratorCall?_plain (p : PaddedTree) : p.plain.decoratorCall? = p.call?.map plain := by
  rw [Tree.decoratorCall?, call?, kind_plain, decoratorExpression?_plain]
  split
  · cases p.expression? with
    | none => rfl
    | some c => cases hc : c.kind == .call <;> simp [Option.filter, hc]
  · rfl

theorem decoratorCall?_of_hidesDecorator {t : Tree} (h : t.hidesDecorator = true) :
    t.decoratorCall? = none := by
  rw [Tree.hidesDecorator] at h
  rw [Tree.decoratorCall?]
  split
  · cases he : t.decoratorExpression? with
    | none => rfl
    | some e =>
      rw [he, Option.any_some] at h
      have hkind : e.kind = .lineContinuation := eq_of_beq h
      simp [hkind]
  · rfl

/-- The call that a decorator is, is the same one with the padding, unless it is hidden. -/
theorem decoratorCall?_full (p : PaddedTree) :
    p.full.decoratorCall? = p.call?.map full ∨
      p.full.hidesDecorator = true ∧ ∃ n ∈ p.nodes, n.hasJoin = true := by
  rcases decoratorExpression?_full p with hexpression | hhidden
  · left
    rw [Tree.decoratorCall?, call?, kind_full, hexpression]
    split
    · cases p.expression? with
      | none => rfl
      | some c => cases hc : c.kind == .call <;> simp [Option.filter, hc]
    · rfl
  · exact Or.inr hhidden

/-- A call whose callee is hidden, or whose first argument is a row of strings with a joined line
in between. -/
def hidesRoute (p : PaddedTree) : Bool :=
  (p.childBy? .function).any (·.full.isHidden) ||
    p.arguments.head?.any fun a => a.kind == .concatenatedString && a.hasJoin

theorem routePattern?_eq (source : String) (rule : RouteRule) (call : Tree) :
    call.routePattern? source rule =
      (call.childBy? .function).bind fun callee =>
        if callee.unparenthesized.kind = .attribute then
          ((callee.unparenthesized.childBy? .attribute).map (·.text source)).bind fun member =>
            if rule.accepts member then
              call.positionalArguments.head?.bind (·.stringValue? source)
            else none
        else none := by
  rw [Tree.routePattern?]
  cases call.childBy? .function with
  | none => rfl
  | some callee =>
    simp only [Option.bind_eq_bind, Option.bind_some]
    split
    · rename_i hkind
      cases callee.unparenthesized.childBy? .attribute with
      | none => simp [hkind, guard]
      | some member => cases ha : rule.accepts (member.text source) <;> simp [hkind, guard, ha]
    · rename_i hkind
      simp [hkind, guard]

/-- A joined line that hides the callee or parts the pattern takes the route away. -/
theorem routePattern?_of_hidesRoute (source' : String) (rule : RouteRule) {source : String}
    {p : PaddedTree} (h : p.KeepsTexts source source') (hargs : p.joinedArguments = 0)
    (hhides : p.hidesRoute = true) : p.full.routePattern? source' rule = none := by
  rw [routePattern?_eq, childBy?_full]
  cases hf : p.childBy? .function with
  | none => rfl
  | some f =>
    rw [hidesRoute, hf, Option.any_some, Bool.or_eq_true] at hhides
    rw [Option.map_some, Option.bind_some]
    rcases hhides with hhidden | hparted
    · have hkind : f.full.unparenthesized.kind = .lineContinuation := eq_of_beq hhidden
      rw [if_neg (by rw [hkind]; decide)]
    · have hvalue : p.full.positionalArguments.head?.bind (·.stringValue? source') = none := by
        rw [positionalArguments_full hargs, List.head?_map]
        cases ha : p.arguments.head? with
        | none => rfl
        | some a =>
          rw [ha, Option.any_some, Bool.and_eq_true] at hparted
          have hkeeps := h.of_mem (mem_nodes_of_argument (List.mem_of_head? ha))
          rw [Option.map_some, Option.bind_some, stringValue?_full hkeeps,
            if_pos ⟨eq_of_beq hparted.1, hparted.2⟩]
      rw [hvalue]
      split
      · cases (f.full.unparenthesized.childBy? .attribute).map (·.text source') with
        | none => rfl
        | some member =>
          rw [Option.bind_some]
          split <;> rfl
      · rfl

/-- A call registers the same pattern with the padding, unless its route is hidden. -/
theorem routePattern?_full {source source' : String} {p : PaddedTree} (rule : RouteRule)
    (h : p.KeepsTexts source source') (hargs : p.joinedArguments = 0)
    (hshows : p.hidesRoute = false) :
    p.full.routePattern? source' rule = p.plain.routePattern? source rule := by
  rw [routePattern?_eq, routePattern?_eq, childBy?_full, childBy?_plain]
  rw [hidesRoute, Bool.or_eq_false_iff] at hshows
  obtain ⟨hcallee, hpieces⟩ := hshows
  cases hf : p.childBy? .function with
  | none => rfl
  | some f =>
    rw [hf, Option.any_some] at hcallee
    have hinner : f.full.unparenthesized = f.inner.full := by
      rcases inner_full f with hinner | ⟨hhidden, -⟩
      · exact hinner
      · rw [hcallee] at hhidden
        cases hhidden
    have hkeeps := h.child (mem_children_of_childBy? hf)
    have hmember := (hkeeps.of_mem (inner_mem_nodes f)).memberText
    have hvalue : p.full.positionalArguments.head?.bind (·.stringValue? source') =
        p.plain.positionalArguments.head?.bind (·.stringValue? source) := by
      rw [positionalArguments_full hargs, positionalArguments_plain, List.head?_map,
        List.head?_map]
      cases ha : p.arguments.head? with
      | none => rfl
      | some a =>
        have hkeepsFirst := h.of_mem (mem_nodes_of_argument (List.mem_of_head? ha))
        rw [ha, Option.any_some, Bool.and_eq_false_iff] at hpieces
        simp only [Option.map_some, Option.bind_some]
        rw [stringValue?_full hkeepsFirst, if_neg]
        rintro ⟨hrow, hjoin⟩
        rcases hpieces with hkind | hnone
        · rw [hrow] at hkind
          cases hkind
        · rw [hjoin] at hnone
          cases hnone
    simp only [Option.map_some, Option.bind_some, hinner, inner_plain, kind_full, kind_plain,
      hmember, hvalue]

end PaddedTree

end Triage.Python
