import Mathlib.Data.List.Forall2
import Triage.Proofs.Answers
import Triage.Proofs.CallEvents

/-!
# Routes and Decorator events

A route is found from the function upwards, its Decorator event from the decorated definition
downwards. Both look at the same decorators, so the routes of a file are among its Decorator events,
in the same order.
-/

namespace Triage

/-- A name that the rule accepts, alone or behind a dot. -/
def RouteRule.AcceptsLabel (rule : RouteRule) (label : String) : Prop :=
  ∃ name, rule.accepts name = true ∧ (label = name ∨ ∃ object, label = object ++ "." ++ name)

/-- The Decorator event with the function and the line of a route, and with a label that the rule
accepts. -/
def RouteRecord.IsSeenIn (rule : RouteRule) (r : RouteRecord) (e : Event) : Prop :=
  e.line = some r.line ∧
    ∃ label, e.details = .decorator label r.handler ∧ rule.AcceptsLabel label

/-- Routes that are seen in some of the events, in the same order. -/
def Covered (rule : RouteRule) (rs : List RouteRecord) (es : List Event) : Prop :=
  ∃ seen, seen.Sublist es ∧ List.Forall₂ (RouteRecord.IsSeenIn rule) rs seen

namespace Covered

variable {rule : RouteRule}

theorem nil (es : List Event) : Covered rule [] es :=
  ⟨[], List.nil_sublist es, List.Forall₂.nil⟩

theorem append {rs rs' : List RouteRecord} {es es' : List Event} (h : Covered rule rs es)
    (h' : Covered rule rs' es') : Covered rule (rs ++ rs') (es ++ es') := by
  obtain ⟨seen, hsub, hseen⟩ := h
  obtain ⟨seen', hsub', hseen'⟩ := h'
  exact ⟨seen ++ seen', hsub.append hsub', List.rel_append hseen hseen'⟩

theorem append_left {rs : List RouteRecord} {es' : List Event} (es : List Event)
    (h : Covered rule rs es') : Covered rule rs (es ++ es') :=
  append (nil es) h

theorem flatMap {α : Type} {f : α → List RouteRecord} {g : α → List Event} {as : List α}
    (h : ∀ a ∈ as, Covered rule (f a) (g a)) : Covered rule (as.flatMap f) (as.flatMap g) := by
  induction as with
  | nil => exact nil _
  | cons a as ih =>
    rw [List.flatMap_cons, List.flatMap_cons]
    exact append (h a List.mem_cons_self) (ih fun b hb => h b (List.mem_cons_of_mem a hb))

end Covered

namespace Python.Tree

variable {source file : String} {rule : RouteRule}

/-- A tree with a function definition in it. -/
def containsFunction (t : Tree) : Bool := t.nodes.any (·.kind == .functionDefinition)

/-- What the grammar says about the decorated definitions in a tree. -/
structure DecoratedAsInGrammar (t : Tree) : Prop where
  /-- No decorator contains a function definition. -/
  decorators : ∀ n ∈ t.nodes, n.kind = .decorator → n.containsFunction = false
  /-- The only function definition among the children is the one that fills the field. -/
  definitions : ∀ n ∈ t.nodes, n.kind = .decoratedDefinition →
    n.children.filter (·.kind == .functionDefinition) =
      (n.childBy? .definition).toList.filter (·.kind == .functionDefinition)

/-- Before a decorated function no other function is defined. One in front of it would have its
routes before those of the decorated function, but its events after them. -/
def FrontsWithoutFunctions (t : Tree) : Prop :=
  ∀ n ∈ t.nodes, n.kind = .decoratedDefinition →
    ∀ d, n.childBy? .definition = some d → d.kind = .functionDefinition →
      ∀ c ∈ n.children.takeWhile (·.field != some .definition), c.containsFunction = false

theorem DecoratedAsInGrammar.child {l : Label} {cs : List Tree} {c : Tree}
    (h : DecoratedAsInGrammar (.node l cs)) (hc : c ∈ cs) : DecoratedAsInGrammar c := by
  have hnodes : ∀ n ∈ c.nodes, n ∈ nodes (.node l cs) := fun n hn => mem_nodes_of_child hc hn
  exact ⟨fun n hn => h.decorators n (hnodes n hn), fun n hn => h.definitions n (hnodes n hn)⟩

theorem FrontsWithoutFunctions.child {l : Label} {cs : List Tree} {c : Tree}
    (h : FrontsWithoutFunctions (.node l cs)) (hc : c ∈ cs) : FrontsWithoutFunctions c :=
  fun n hn => h n (mem_nodes_of_child hc hn)

/-- The routes of a node under a parent. -/
def routesOf (source : String) (rule : RouteRule) (v : Option Tree × Tree) : List RouteRecord :=
  if v.2.kind = .functionDefinition then
    routesAt source rule ⟨v.2, v.1.toList.map fun p => ⟨p, []⟩⟩
  else []

/-- The routes of the nodes below a node. -/
def routesBelow (source : String) (rule : RouteRule) (t : Tree) : List RouteRecord :=
  t.children.flatMap fun c => (c.visits (some t)).flatMap (routesOf source rule)

theorem routesAt_congr {c d : Cursor} (hnode : c.node = d.node) (hparent : c.parent? = d.parent?) :
    routesAt source rule c = routesAt source rule d := by
  rw [routesAt, routesAt, hnode, hparent]

theorem routesOf_parent (c : Cursor) (hc : c.node.kind = .functionDefinition) :
    routesOf source rule (c.parent?, c.node) = routesAt source rule c := by
  have hparent : Cursor.parent? ⟨c.node, c.parent?.toList.map fun p => ⟨p, []⟩⟩ = c.parent? := by
    cases c.parent? <;> rfl
  rw [routesOf, if_pos hc]
  exact routesAt_congr rfl hparent

theorem routes_eq_visits (t : Tree) :
    t.routes source rule = (t.visits none).flatMap (routesOf source rule) := by
  rw [← walk_visits, routes, List.flatMap_map]
  induction t.walk with
  | nil => rfl
  | cons c cs ih =>
    by_cases hc : c.node.kind = .functionDefinition
    · simp [hc, ih, routesOf_parent c hc]
    · simpa [hc, routesOf] using ih

theorem visits_flatMap (parent? : Option Tree) (t : Tree) :
    (t.visits parent?).flatMap (routesOf source rule) =
      routesOf source rule (parent?, t) ++ t.routesBelow source rule := by
  rw [visits_eq, List.flatMap_cons, List.flatMap_assoc]
  rfl

theorem decoratorCalls_eq_nil {parent? : Option Tree}
    (h : ∀ p ∈ parent?, p.kind ≠ .decoratedDefinition) : decoratorCalls parent? = [] := by
  cases parent? with
  | none => rfl
  | some p => exact if_neg (h p rfl)

/-- Only functions right under a decorated definition have routes. -/
theorem routesOf_eq_nil {v : Option Tree × Tree}
    (h : v.2.kind ≠ .functionDefinition ∨ ∀ p ∈ v.1, p.kind ≠ .decoratedDefinition) :
    routesOf source rule v = [] := by
  unfold routesOf
  split
  · rename_i hkind
    have hparent : ∀ p ∈ v.1, p.kind ≠ .decoratedDefinition :=
      h.resolve_left (not_not_intro hkind)
    have hsame : Cursor.parent? ⟨v.2, v.1.toList.map fun p => ⟨p, []⟩⟩ = v.1 := by
      cases v.1 <;> rfl
    rw [routesAt, hsame, decoratorCalls_eq_nil hparent]
    split <;> rfl
  · rfl

theorem routesOf_visits_eq_nil {parent? : Option Tree} {t : Tree}
    (h : t.containsFunction = false) : (t.visits parent?).flatMap (routesOf source rule) = [] := by
  rw [List.flatMap_eq_nil_iff]
  intro v hv
  have hmem : v.2 ∈ t.nodes := by
    rw [nodes_eq_preorder, ← map_visits parent?]
    exact List.mem_map_of_mem hv
  have hkind : v.2.kind ≠ .functionDefinition := by
    simpa using List.any_eq_false.mp h v.2 hmem
  exact routesOf_eq_nil (Or.inl hkind)

theorem events_node (source file : String) (l : Label) (cs : List Tree) :
    events source file (.node l cs) =
      eventsAt source file (.node l cs) ++ cs.flatMap (events source file) := by
  simp only [events, nodes_node, List.flatMap_cons, List.flatMap_assoc]
  rfl

theorem filter_decorator_eventsAt {t : Tree} (h : t.kind = .decoratedDefinition) :
    (t.eventsAt source file).filter (·.kind == .decorator) = t.decoratorEvents source file := by
  have hevents : t.eventsAt source file = t.decoratorEvents source file := by
    rw [eventsAt, h]
  rw [hevents, List.filter_eq_self]
  intro e he
  simp [(kind_of_mem_decoratorEvents he).1]

/-- The label of a decorator that registers a route is the member that the rule accepts, behind
the name of its object when that has one. -/
theorem acceptsLabel_of_routePattern? {call : Tree} {route : String}
    (h : routePattern? source rule call = some route) :
    rule.AcceptsLabel (call.callLabel source) := by
  rw [routePattern?] at h
  obtain ⟨callee, hcallee, h⟩ := Option.bind_eq_some_iff.mp h
  obtain ⟨_, hkind, h⟩ := Option.bind_eq_some_iff.mp h
  obtain ⟨member, hmember, h⟩ := Option.bind_eq_some_iff.mp h
  obtain ⟨_, haccepts, -⟩ := Option.bind_eq_some_iff.mp h
  have hkind : callee.unparenthesized.kind = .attribute := by simpa [guard] using hkind
  have haccepts : rule.accepts (member.text source) = true := by
    simpa [guard] using haccepts
  refine ⟨member.text source, haccepts, ?_⟩
  have hne : callee.unparenthesized.kind ≠ .parenthesizedExpression := by rw [hkind]; decide
  rw [callLabel, hcallee, Option.map_some, Option.getD_some, calleeLabel]
  simp only [hkind]
  cases hname : callee.unparenthesized.simpleName? source with
  | none =>
    left
    simp [hmember]
  | some name =>
    right
    rw [simpleName?, unparenthesized_of_ne hne] at hname
    simp only [hkind, hmember] at hname
    split at hname
    · rename_i object member' hobject hsame
      obtain rfl := Option.some.inj hsame
      split at hname
      · exact ⟨_, (Option.some.inj hname).symm⟩
      · cases hname
    · cases hname

theorem Covered.filterMap_map {α : Type} {f : α → Option RouteRecord} {g : α → Event} {as : List α}
    (h : ∀ a r, f a = some r → r.IsSeenIn rule (g a)) :
    Covered rule (as.filterMap f) (as.map g) := by
  induction as with
  | nil => exact .nil _
  | cons a as ih =>
    obtain ⟨seen, hsub, hseen⟩ := ih
    cases hr : f a with
    | none =>
      rw [List.filterMap_cons_none hr]
      exact ⟨seen, hsub.cons _, hseen⟩
    | some r =>
      rw [List.filterMap_cons_some hr]
      exact ⟨g a :: seen, hsub.cons_cons _, .cons (h a r hr) hseen⟩

/-- The routes of a decorated function are seen in the events of its decorators. -/
theorem covered_definition (source file : String) (rule : RouteRule) {t d : Tree}
    (hd : t.childBy? .definition = some d)
    (hfunction : d.kind = .functionDefinition) :
    Covered rule (routesOf source rule (some t, d)) (t.decoratorEvents source file) := by
  rw [routesOf, if_pos hfunction, routesAt, decoratorEvents, hd]
  simp only [hfunction, ne_eq, not_true, if_false]
  cases hname : d.childBy? .name with
  | none => exact .nil _
  | some name =>
    apply Covered.filterMap_map
    intro call r hr
    obtain ⟨route, hroute, rfl⟩ := Option.map_eq_some_iff.mp hr
    exact ⟨rfl, _, rfl, acceptsLabel_of_routePattern? hroute⟩

/-- A definition that is a function parts the children: before it no function is contained. -/
theorem FrontsWithoutFunctions.parts {l : Label} {cs : List Tree} {d : Tree}
    (h : FrontsWithoutFunctions (.node l cs)) (hl : l.kind = .decoratedDefinition)
    (hd : childBy? .definition (.node l cs) = some d) (hfunction : d.kind = .functionDefinition) :
    ∃ before after, cs = before ++ d :: after ∧ ∀ c ∈ before, c.containsFunction = false := by
  obtain ⟨hfield, before, after, rfl, hbefore⟩ := List.find?_eq_some_iff_append.mp hd
  have hfront : (before ++ d :: after).takeWhile (·.field != some .definition) = before := by
    rw [List.takeWhile_append_of_pos (by simpa using hbefore)]
    simp [bne, hfield]
  exact ⟨before, after, rfl, fun c hc =>
    h _ (self_mem_nodes _) hl d hd hfunction c (hfront.symm ▸ hc)⟩

/-- After such a definition no function is a child. -/
theorem DecoratedAsInGrammar.parts {l : Label} {cs : List Tree} {d : Tree}
    (h : DecoratedAsInGrammar (.node l cs)) (hfronts : FrontsWithoutFunctions (.node l cs))
    (hl : l.kind = .decoratedDefinition)
    (hd : childBy? .definition (.node l cs) = some d) (hfunction : d.kind = .functionDefinition) :
    ∃ before after, cs = before ++ d :: after ∧ (∀ c ∈ before, c.containsFunction = false) ∧
      ∀ c ∈ after, c.kind ≠ .functionDefinition := by
  obtain ⟨before, after, rfl, hbefore⟩ := hfronts.parts hl hd hfunction
  have honly := h.definitions _ (self_mem_nodes (.node l (before ++ d :: after))) hl
  simp only [hd, children, List.filter_append, Option.toList_some, List.filter_cons, hfunction,
    beq_self_eq_true, if_true, List.filter_nil] at honly
  have hlength := congrArg List.length honly
  simp only [List.length_append, List.length_cons, List.length_nil] at hlength
  have hafter : after.filter (·.kind == .functionDefinition) = [] :=
    List.length_eq_zero_iff.mp (by omega)
  refine ⟨before, after, rfl, hbefore, fun c hc => ?_⟩
  simpa using List.filter_eq_nil_iff.mp hafter c hc

theorem DecoratedAsInGrammar.routesOf_child {l : Label} {cs : List Tree} {c : Tree}
    (h : DecoratedAsInGrammar (.node l cs)) (hc : c ∈ cs)
    (hnone : ¬ (l.kind = .decoratedDefinition ∧
      ∃ d, childBy? .definition (.node l cs) = some d ∧ d.kind = .functionDefinition)) :
    routesOf source rule (some (.node l cs), c) = [] := by
  by_cases hl : l.kind = .decoratedDefinition
  · have honly := h.definitions _ (self_mem_nodes _) hl
    have hempty : (childBy? .definition (.node l cs)).toList.filter
        (·.kind == .functionDefinition) = [] := by
      cases hd : childBy? .definition (.node l cs) with
      | none => rfl
      | some d =>
        have hkind : d.kind ≠ .functionDefinition := fun hk => hnone ⟨hl, d, hd, hk⟩
        simp [hkind]
    rw [hempty] at honly
    have hkind : c.kind ≠ .functionDefinition := by
      simpa using List.filter_eq_nil_iff.mp honly c hc
    exact routesOf_eq_nil (Or.inl hkind)
  · refine routesOf_eq_nil (Or.inr ?_)
    intro p hp
    obtain rfl := Option.mem_some_iff.mp hp
    exact hl

/-- The routes below a node are seen in the Decorator events of its subtree. -/
theorem covered_below (source file : String) (rule : RouteRule) (t : Tree)
    (h : DecoratedAsInGrammar t) (hfronts : t.FrontsWithoutFunctions) :
    Covered rule (t.routesBelow source rule)
      ((t.events source file).filter (·.kind == .decorator)) := by
  induction t using Tree.induction with
  | node l cs ih =>
    -- A row of children without routes of their own.
    have hrow : ∀ part : List Tree, (∀ c ∈ part, c ∈ cs) →
        (∀ c ∈ part, routesOf source rule (some (.node l cs), c) = []) →
        Covered rule
          (part.flatMap fun c => (c.visits (some (.node l cs))).flatMap (routesOf source rule))
          (part.flatMap fun c => (c.events source file).filter (·.kind == .decorator)) := by
      intro part hpart hown
      refine Covered.flatMap fun c hc => ?_
      rw [visits_flatMap, hown c hc]
      exact ih c (hpart c hc) (h.child (hpart c hc)) (hfronts.child (hpart c hc))
    rw [routesBelow, events_node, List.filter_append, List.filter_flatMap]
    by_cases hcase : l.kind = .decoratedDefinition ∧
      ∃ d, childBy? .definition (.node l cs) = some d ∧ d.kind = .functionDefinition
    · obtain ⟨hl, d, hd, hfunction⟩ := hcase
      obtain ⟨before, after, rfl, hbefore, hafter⟩ := h.parts hfronts hl hd hfunction
      have hnone : before.flatMap (fun c =>
          (c.visits (some (.node l (before ++ d :: after)))).flatMap (routesOf source rule)) = [] :=
        List.flatMap_eq_nil_iff.mpr fun c hc => routesOf_visits_eq_nil (hbefore c hc)
      have hown := covered_definition source file rule hd hfunction
      have hbelow := ih d (by simp) (h.child (by simp)) (hfronts.child (by simp))
      have hlater := hrow after (fun c hc => by simp [hc]) fun c hc =>
        routesOf_eq_nil (Or.inl (hafter c hc))
      rw [filter_decorator_eventsAt (t := .node l _) hl, children, List.flatMap_append, hnone,
        List.flatMap_cons, visits_flatMap, List.nil_append, List.append_assoc, List.flatMap_append,
        List.flatMap_cons]
      exact hown.append ((hbelow.append hlater).append_left _)
    · exact Covered.append_left _ (hrow cs (fun c hc => hc) fun c hc => h.routesOf_child hc hcase)

/-- The routes of a file are seen in its Decorator events, in the same order. -/
theorem covered_routes (source file : String) (rule : RouteRule) {t : Tree}
    (h : DecoratedAsInGrammar t) (hfronts : t.FrontsWithoutFunctions) :
    Covered rule (t.routes source rule)
      ((t.events source file).filter (·.kind == .decorator)) := by
  have htop : routesOf source rule (none, t) = [] := routesOf_eq_nil (Or.inr (by simp))
  rw [routes_eq_visits, visits_flatMap, htop]
  exact covered_below source file rule t h hfronts

end Python.Tree

end Triage
