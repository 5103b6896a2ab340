import Mathlib.Logic.Relation
import Triage.Proofs.Parentheses

/-!
# What is extracted in spite of parentheses

A walk passes parentheses, comments and punctuation without a trace. What is left of the walk of a
tree with parentheses put in is node for node that of the first tree, so its calls, routes and
events are the same. Reading an expression starts with the parentheses off, and taking them off
comes to an end.
-/

namespace Triage.Python

/-- A kind of which nothing is extracted: parentheses, comments, keywords and punctuation. -/
def Kind.isPassedOver (k : Kind) : Bool := !k.showsExpression || k == .parenthesizedExpression

variable {source source' : String} {arguments : Bool} {t t' : Tree}

section Walks

/-- Nodes on a walk that belong together, and the calls that decorate a function there. -/
structure SameVisit (source source' : String) (u v : Option Tree × Tree) : Prop where
  node : Enclosed source source' false u.2 v.2
  decorators : List.Forall₂ (SameCall source source') (Tree.decoratorCalls u.1)
    (Tree.decoratorCalls v.1)

namespace Tree

/-- What is left of a walk without the nodes that are passed over. -/
def readVisits (parent? : Option Tree) (t : Tree) : List (Option Tree × Tree) :=
  (t.visits parent?).filter fun v => !v.2.kind.isPassedOver

theorem readVisits_eq (parent? : Option Tree) (t : Tree) :
    t.readVisits parent? =
      (if t.kind.isPassedOver then [] else [(parent?, t)]) ++
        t.children.flatMap (readVisits (some t)) := by
  rw [readVisits, visits_eq, List.filter_cons, List.filter_flatMap]
  cases t.kind.isPassedOver <;> rfl

/-- Parentheses add nothing to what is left of a walk. -/
theorem readVisits_around (parent? : Option Tree) (w : Parentheses) (field : Option Field)
    (t : Tree) :
    (w.around field t).readVisits parent? = t.readVisits (some (w.around field t)) := by
  have hbeside : ∀ c ∈ w.front ++ w.back, ∀ p?, c.readVisits p? = [] := by
    intro c hc p?
    rcases Parentheses.eq_of_mem_beside hc with ⟨_, _, rfl⟩ | ⟨_, rfl⟩ <;> rfl
  have hfront : w.front.flatMap (readVisits (some (w.around field t))) = [] :=
    List.flatMap_eq_nil_iff.mpr fun c hc => hbeside c (List.mem_append_left _ hc) _
  have hback : w.back.flatMap (readVisits (some (w.around field t))) = [] :=
    List.flatMap_eq_nil_iff.mpr fun c hc => hbeside c (List.mem_append_right _ hc) _
  have hchildren : (w.around field t).children = w.front ++ t :: w.back := rfl
  rw [readVisits_eq, hchildren, List.flatMap_append, List.flatMap_cons, hfront, hback,
    List.append_nil]
  rfl

/-- Within any number of parentheses nothing is decorated by a parent. -/
theorem readVisits_nest (parent? : Option Tree) (w : Parentheses) (ws : List Parentheses)
    (field : Option Field) (t : Tree) :
    ∃ inner? : Option Tree, decoratorCalls inner? = [] ∧
      (w.around field (Parentheses.nest ws t)).readVisits parent? = t.readVisits inner? := by
  induction ws generalizing parent? w field with
  | nil => exact ⟨some (w.around field t), rfl, readVisits_around parent? w field t⟩
  | cons w' ws ih =>
    obtain ⟨inner?, hnone, hvisits⟩ := ih (some (w.around field (Parentheses.nest (w' :: ws) t)))
      w' none
    exact ⟨inner?, hnone, (readVisits_around parent? w field _).trans hvisits⟩

end Tree

theorem MayBeEnclosed.decoratorCalls {c : Tree} (h : MayBeEnclosed t.kind c) :
    Tree.decoratorCalls (some t) = [] := by
  apply Tree.decoratorCalls_eq_nil
  intro p hp hkind
  obtain rfl := Option.mem_some_iff.mp hp
  rw [hkind] at h
  cases h

/-- Node for node, the walks leave the same. -/
theorem Enclosed.readVisits {parent? parent'? : Option Tree}
    (h : Enclosed source source' arguments t t')
    (hparents : List.Forall₂ (SameCall source source') (Tree.decoratorCalls parent?)
      (Tree.decoratorCalls parent'?)) :
    List.Forall₂ (SameVisit source source') (t.readVisits parent?) (t'.readVisits parent'?) := by
  induction t using Tree.induction generalizing arguments t' parent? parent'? with
  | node l cs ih =>
    rw [Tree.readVisits_eq, Tree.readVisits_eq, h.kind_eq]
    refine List.rel_append ?_ ?_
    · split
      · exact .nil
      · exact .cons ⟨h.anywhere, hparents⟩ .nil
    · have hchildren := (List.forall₂_and_left (p := (· ∈ cs)) cs _).mpr
        ⟨fun _ hc => hc, h.children_enclosed⟩
      refine List.rel_flatMap hchildren ?_
      rintro c d ⟨hc, hcd⟩
      cases hcd with
      | bare first _ => exact ih c hc first h.decoratorCalls
      | @within e w ws _ place first _ =>
        -- the parent changes to a pair of parentheses, but neither of the two is a definition
        obtain ⟨inner?, hnone, hvisits⟩ := Tree.readVisits_nest (some t') w ws c.field e
        rw [hvisits]
        refine ih c hc first ?_
        rw [hnone, place.decoratorCalls]
        exact .nil

theorem flatMap_related {α β γ : Type} {R : α → β → Prop} {f : α → List γ} {g : β → List γ}
    {as : List α} {bs : List β} (h : List.Forall₂ R as bs) (hfg : ∀ a b, R a b → g b = f a) :
    bs.flatMap g = as.flatMap f := by
  rw [List.flatMap_def, List.flatMap_def, map_related h hfg]

/-- What is made of the nodes on a walk is the same, when nothing is made of those passed over. -/
theorem Enclosed.flatMap_visits {γ : Type} {f g : Option Tree × Tree → List γ}
    (h : Enclosed source source' arguments t t')
    (hf : ∀ v, v.2.kind.isPassedOver = true → f v = [])
    (hg : ∀ v, v.2.kind.isPassedOver = true → g v = [])
    (hfg : ∀ u v, SameVisit source source' u v → g v = f u) :
    (t'.visits none).flatMap g = (t.visits none).flatMap f := by
  have hread : ∀ (k : Option Tree × Tree → List γ), (∀ v, v.2.kind.isPassedOver = true → k v = []) →
      ∀ u : Tree, (u.visits none).flatMap k = (u.readVisits none).flatMap k := by
    intro k hk u
    rw [Tree.readVisits]
    induction u.visits none with
    | nil => rfl
    | cons v vs ih =>
      rw [List.filter_cons, List.flatMap_cons, ih]
      cases hv : v.2.kind.isPassedOver with
      | true => simp [hk v hv]
      | false => rfl
  rw [hread f hf, hread g hg]
  exact flatMap_related (h.readVisits .nil) hfg

end Walks

section Extraction

/-- The events of a node, attributes apart. -/
theorem Tree.filter_ne_attributeAccess_eventsAt (source file : String) (t : Tree) :
    (t.eventsAt source file).filter (·.kind != .attributeAccess) =
      if t.kind = .call then [t.callEvent source file]
      else if t.kind = .decoratedDefinition then t.decoratorEvents source file
      else [] := by
  rw [eventsAt]
  split
  · rename_i hkind
    rw [if_pos hkind]
    rfl
  · rename_i hkind
    rw [if_neg (by rw [hkind]; decide), if_pos hkind, List.filter_eq_self]
    intro e he
    rw [(kind_of_mem_decoratorEvents he).1]
    rfl
  · rename_i hkind
    rw [if_neg (by rw [hkind]; decide), if_neg (by rw [hkind]; decide)]
    split <;> rfl
  · rename_i hcall hdecorated _
    rw [if_neg hcall, if_neg hdecorated]
    rfl

theorem Enclosed.decoratorEvents_eq (h : Enclosed source source' arguments t t')
    (hkind : t.kind = .decoratedDefinition) (file : String) :
    t'.decoratorEvents source' file = t.decoratorEvents source file := by
  have hplace : ∀ c : Tree, c.field = some .definition → ¬ MayBeEnclosed t.kind c := by
    intro c _ place
    rw [hkind] at place
    cases place
  rw [Tree.decoratorEvents, Tree.decoratorEvents]
  rcases h.childBy?_bare hplace with ⟨hd, hd'⟩ | ⟨d, d', hdefinition, -, hd, hd'⟩
  · rw [hd, hd']
  · simp only [hd, hd', hdefinition.kind_eq]
    split
    · rfl
    · rename_i hfunction
      have hfunction : d.kind = .functionDefinition := not_not.mp hfunction
      rcases hdefinition.functionName hfunction with ⟨hn, hn'⟩ | ⟨n, n', hn, hn', htext⟩
      · rw [hn, hn']
      · simp only [hn, hn', htext, hdefinition.line_eq (Or.inr hfunction)]
        exact map_related h.decoratorCalls fun call call' hcall => by rw [hcall.2.callLabel_eq]

theorem SameVisit.routesOf_eq {u v : Option Tree × Tree} (h : SameVisit source source' u v)
    (rule : RouteRule) : Tree.routesOf source' rule v = Tree.routesOf source rule u := by
  have hparent : ∀ w : Option Tree × Tree,
      Cursor.parent? ⟨w.2, w.1.toList.map fun p => ⟨p, []⟩⟩ = w.1 := by
    intro w
    cases w.1 <;> rfl
  rw [Tree.routesOf, Tree.routesOf, h.node.kind_eq]
  split
  · rename_i hkind
    rw [Tree.routesAt, Tree.routesAt, hparent, hparent]
    rcases h.node.functionName hkind with ⟨hn, hn'⟩ | ⟨n, n', hn, hn', htext⟩
    · rw [hn, hn']
    · simp only [hn, hn', htext, h.node.line_eq (Or.inr hkind)]
      rw [List.filterMap_eq_flatMap_toList, List.filterMap_eq_flatMap_toList]
      exact flatMap_related h.decorators fun call call' hcall => by
        rw [hcall.2.routePattern?_eq hcall.1]
  · rfl

namespace Enclosed

theorem routes_eq (h : Enclosed source source' arguments t t') (rule : RouteRule) :
    t'.routes source' rule = t.routes source rule := by
  have hnone : ∀ (text : String) (v : Option Tree × Tree), v.2.kind.isPassedOver = true →
      Tree.routesOf text rule v = [] := by
    intro text v hv
    refine Tree.routesOf_eq_nil (Or.inl fun hkind => ?_)
    rw [hkind] at hv
    cases hv
  rw [Tree.routes_eq_visits, Tree.routes_eq_visits]
  exact h.flatMap_visits (hnone source) (hnone source') fun u v huv => huv.routesOf_eq rule

/-- What is made of the nodes is the same, when it is made of their kinds and of what they keep. -/
theorem flatMap_nodes {γ : Type} {f g : Tree → List γ}
    (h : Enclosed source source' arguments t t')
    (hf : ∀ n : Tree, n.kind.isPassedOver = true → f n = [])
    (hg : ∀ n : Tree, n.kind.isPassedOver = true → g n = [])
    (hfg : ∀ n n', Enclosed source source' false n n' → g n' = f n) :
    t'.nodes.flatMap g = t.nodes.flatMap f := by
  have hvisits : ∀ (k : Tree → List γ) (u : Tree),
      u.nodes.flatMap k = (u.visits none).flatMap fun v => k v.2 := by
    intro k u
    rw [Tree.nodes_eq_preorder, ← Tree.map_visits none, List.flatMap_map]
  rw [hvisits, hvisits]
  exact h.flatMap_visits (fun v => hf v.2) (fun v => hg v.2) fun u v huv => hfg u.2 v.2 huv.node

theorem calls_eq (h : Enclosed source source' arguments t t') :
    t'.calls source' = t.calls source := by
  have hnone : ∀ (text : String) (n : Tree), n.kind.isPassedOver = true →
      (if n.kind == .call then (n.callRecord? text).toList else []) = [] := by
    intro text n hn
    refine if_neg fun hkind => ?_
    rw [eq_of_beq hkind] at hn
    cases hn
  rw [Tree.calls, Tree.calls, PaddedTree.filterMap_filter, PaddedTree.filterMap_filter]
  refine h.flatMap_nodes (hnone source) (hnone source') fun n n' hn => ?_
  rw [hn.kind_eq]
  split
  · rename_i hkind
    rw [hn.callRecord?_eq (eq_of_beq hkind)]
  · rfl

/-- The events of calls and decorators are the same, in one order. -/
theorem events_eq (h : Enclosed source source' arguments t t') (file : String) :
    (t'.events source' file).filter (·.kind != .attributeAccess) =
      (t.events source file).filter (·.kind != .attributeAccess) := by
  have hnone : ∀ (text : String) (n : Tree), n.kind.isPassedOver = true →
      (n.eventsAt text file).filter (·.kind != .attributeAccess) = [] := by
    intro text n hn
    rw [Tree.filter_ne_attributeAccess_eventsAt, if_neg, if_neg]
    all_goals
      intro hkind
      rw [hkind] at hn
      cases hn
  rw [Tree.events, Tree.events, List.filter_flatMap, List.filter_flatMap]
  refine h.flatMap_nodes (hnone source) (hnone source') fun n n' hn => ?_
  rw [Tree.filter_ne_attributeAccess_eventsAt, Tree.filter_ne_attributeAccess_eventsAt, hn.kind_eq]
  split
  · rename_i hkind
    rw [hn.callEvent_eq hkind]
  · split
    · rename_i hkind
      rw [hn.decoratorEvents_eq hkind]
    · rfl

end Enclosed

/-- In a tree of the grammar, calls, routes and the events of calls and decorators are the same
wherever parentheses are put, within arguments too. -/
theorem Parenthesized.extraction_eq (h : Parenthesized source source' t t')
    (hgrammar : t.ArgumentsAsInGrammar) (file : String) :
    t'.calls source' = t.calls source ∧
      (∀ rule, t'.routes source' rule = t.routes source rule) ∧
      (t'.events source' file).filter (·.kind != .attributeAccess) =
        (t.events source file).filter (·.kind != .attributeAccess) := by
  have henclosed := h.enclosed hgrammar
  exact ⟨henclosed.calls_eq, henclosed.routes_eq, henclosed.events_eq file⟩

end Extraction

section Stripping

namespace Tree

/-- One turn of the loop that takes parentheses off: what comes first in them. The loop is over when
there is nothing. -/
def stripped? (t : Tree) : Option Tree :=
  if t.kind = .parenthesizedExpression then t.namedChildren.find? (·.kind != .comment) else none

theorem stripped?_eq (t : Tree) :
    t.stripped? =
      if t.kind = .parenthesizedExpression then
        t.children.find? (fun c => c.kind.showsExpression)
      else none := by
  rw [stripped?, find?_namedChildren]

theorem mem_of_stripped? {u : Tree} (h : t.stripped? = some u) : u ∈ t.children := by
  rw [stripped?_eq] at h
  split at h
  · exact List.mem_of_find?_eq_some h
  · cases h

/-- No tree can be stripped forever. -/
theorem wellFounded_stripped? : WellFounded fun u t : Tree => t.stripped? = some u := by
  refine ⟨fun t => ?_⟩
  induction t using Tree.induction with
  | node l cs ih => exact ⟨_, fun u hu => ih u (mem_of_stripped? hu)⟩

theorem unparenthesized_of_stripped? {u : Tree} (h : t.stripped? = some u) :
    t.unparenthesized = u.unparenthesized := by
  rw [stripped?_eq] at h
  split at h
  · rename_i hkind
    rw [unparenthesized_eq hkind, h]
    rfl
  · cases h

theorem unparenthesized_of_stripped?_none (h : t.stripped? = none) : t.unparenthesized = t := by
  rw [stripped?_eq] at h
  split at h
  · rename_i hkind
    rw [unparenthesized_eq hkind, h]
    rfl
  · rename_i hkind
    exact unparenthesized_of_ne hkind

/-- The turns of the loop lead to the expression without its parentheses, where it is over. -/
theorem stripped?_unparenthesized (t : Tree) :
    Relation.ReflTransGen (fun t u : Tree => t.stripped? = some u) t t.unparenthesized ∧
      t.unparenthesized.stripped? = none := by
  induction t using wellFounded_stripped?.induction with
  | h t ih =>
    cases ht : t.stripped? with
    | none =>
      rw [unparenthesized_of_stripped?_none ht]
      exact ⟨.refl, ht⟩
    | some u =>
      obtain ⟨hsteps, hend⟩ := ih u ht
      rw [unparenthesized_of_stripped? ht]
      exact ⟨.head ht hsteps, hend⟩

end Tree

end Stripping

/-- Calls, routes and the events of calls and decorators are the same whatever parentheses are put
around callees, around the objects of attributes and around the expressions of decorators. Taking
parentheses off ends on every tree, and ends at once where nothing but comments is in them. -/
theorem parentheses_invisible :
    (∀ (source source' file : String) (t t' : Tree), Enclosed source source' false t t' →
      t'.calls source' = t.calls source ∧
        (∀ rule, t'.routes source' rule = t.routes source rule) ∧
        (t'.events source' file).filter (·.kind != .attributeAccess) =
          (t.events source file).filter (·.kind != .attributeAccess)) ∧
      (WellFounded fun u t : Tree => t.stripped? = some u) ∧
      ∀ t : Tree,
        (Relation.ReflTransGen (fun t u : Tree => t.stripped? = some u) t t.unparenthesized ∧
          t.unparenthesized.stripped? = none) ∧
        (t.kind = .parenthesizedExpression →
          (∀ c ∈ t.namedChildren, c.kind = .comment) → t.unparenthesized = t) := by
  refine ⟨fun source source' file t t' h => ⟨h.calls_eq, h.routes_eq, h.events_eq file⟩,
    Tree.wellFounded_stripped?, fun t => ⟨t.stripped?_unparenthesized, ?_⟩⟩
  intro hkind hcomments
  apply Tree.unparenthesized_of_stripped?_none
  rw [Tree.stripped?, if_pos hkind, List.find?_eq_none]
  intro c hc
  simp [hcomments c hc]

/-- A route, with a line end among its arguments. -/
def bareText : String := "@a.get(\n'/')\ndef f(): 0\n"

def bareTree : Tree :=
  .node { kind := .decoratedDefinition, start := 0, stop := 23 }
    [.node { kind := .decorator, start := 0, stop := 12 }
      [.node { kind := .call, start := 1, stop := 12 }
        [.node { kind := .attribute, field := some .function, start := 1, stop := 6 }
          [.node { kind := .identifier, field := some .object, start := 1, stop := 2 } [],
          .node { kind := .identifier, field := some .attribute, start := 3, stop := 6 } []],
        .node { kind := .argumentList, field := some .arguments, start := 6, stop := 12 }
          [.node { kind := .string, start := 8, stop := 11, row := 1 } []]]],
    .node
      { kind := .functionDefinition, field := some .definition, start := 13, stop := 23, row := 2 }
      [.node { kind := .identifier, field := some .name, start := 17, stop := 18, row := 2 } []]]

/-- The same route with its object and its callee in parentheses. The line end is behind a comment
in the outer ones. -/
def enclosedText : String := "@((a).get # r\n)('/')\ndef f(): 0\n"

def aroundObject : Parentheses where
  place := ⟨2, 5, 0⟩
  opening := ⟨2, 3, 0⟩
  before := []
  behind := []
  closing := ⟨4, 5, 0⟩

def aroundCallee : Parentheses where
  place := ⟨1, 15, 0⟩
  opening := ⟨1, 2, 0⟩
  before := []
  behind := [⟨10, 13, 0⟩]
  closing := ⟨14, 15, 1⟩

def enclosedTree : Tree :=
  .node { kind := .decoratedDefinition, start := 0, stop := 31 }
    [.node { kind := .decorator, start := 0, stop := 20 }
      [.node { kind := .call, start := 1, stop := 20 }
        [aroundCallee.around (some .function)
          (.node { kind := .attribute, start := 2, stop := 9 }
            [aroundObject.around (some .object)
              (.node { kind := .identifier, start := 3, stop := 4 } []),
            .node { kind := .identifier, field := some .attribute, start := 6, stop := 9 } []]),
        .node { kind := .argumentList, field := some .arguments, start := 15, stop := 20, row := 1 }
          [.node { kind := .string, start := 16, stop := 19, row := 1 } []]]],
    .node
      { kind := .functionDefinition, field := some .definition, start := 21, stop := 31, row := 2 }
      [.node { kind := .identifier, field := some .name, start := 25, stop := 26, row := 2 } []]]

theorem enclosed_bareTree : Enclosed bareText enclosedText false bareTree enclosedTree := by
  refine .node (by decide +kernel) (.bare ?_ rfl (.bare ?_ rfl .nil))
  · refine .node (by decide +kernel) (.bare ?_ rfl .nil)
    refine .node (by decide +kernel) (.within aroundCallee [] (.callee rfl) ?_ rfl
      (.bare ?_ rfl .nil))
    · exact .node (by decide +kernel) (.within aroundObject [] (.object rfl)
        (.node (by decide +kernel) .nil) rfl (.bare (.node (by decide +kernel) .nil) rfl .nil))
    · exact .node (by decide +kernel) (.bare (.node (by decide +kernel) .nil) rfl .nil)
  · exact .node (by decide +kernel) (.bare (.node (by decide +kernel) .nil) rfl .nil)

/-- The record and the route of the call are found through both pairs of parentheses. -/
theorem parentheses_invisible_enclosedTree :
    Enclosed bareText enclosedText false bareTree enclosedTree ∧
      enclosedTree.calls enclosedText = [⟨"a.get", 1, 1⟩] ∧
      enclosedTree.routes enclosedText .fastapi = [⟨"/", "f", 3⟩] ∧
      ((enclosedTree.events enclosedText "app.py").filter (·.kind != .attributeAccess)).map
        (·.details) = [.decorator "a.get" "f", .call "a.get" 1] := by
  obtain ⟨hcalls, hroutes, hevents⟩ :=
    parentheses_invisible.1 bareText enclosedText "app.py" bareTree enclosedTree enclosed_bareTree
  refine ⟨enclosed_bareTree, ?_, ?_, ?_⟩
  · rw [hcalls]
    decide +kernel
  · rw [hroutes]
    decide +kernel
  · rw [hevents]
    decide +kernel

end Triage.Python
