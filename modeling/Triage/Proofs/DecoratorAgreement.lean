import Triage.Proofs.DecoratorEvents

/-!
# Decorators, calls and routes agree

The call of a decorator stands below the decorated definition, so its Function Call event comes
after the Decorator event. Together with the routes, three readings of one walk are lined up here.
-/

namespace Triage.Python.Tree

variable {source file : String}

mutual
theorem unparenthesized_mem : ∀ t : Tree, t.unparenthesized ∈ t.nodes
  | .node l cs => by
    rw [unparenthesized]
    split
    · cases h : firstInside cs with
      | none => exact self_mem_nodes _
      | some inside =>
        rw [nodes_node]
        exact List.mem_cons_of_mem _ (firstInside_mem cs inside h)
    · exact self_mem_nodes _
theorem firstInside_mem : ∀ (cs : List Tree) (inside : Tree), firstInside cs = some inside →
    inside ∈ cs.flatMap nodes
  | [], _, h => nomatch h
  | c :: cs, inside, h => by
    rw [firstInside] at h
    rw [List.flatMap_cons, List.mem_append]
    split at h
    · left
      exact Option.some.inj h ▸ unparenthesized_mem c
    · right
      exact firstInside_mem cs inside h
end

/-- The call that a child of a decorated definition decorates it with. -/
def decoratorCall? (c : Tree) : Option Tree :=
  if c.kind = .decorator then c.decoratorExpression?.filter (·.kind == .call) else none

theorem decoratorCalls_eq_filterMap {l : Label} (cs : List Tree)
    (hl : l.kind = .decoratedDefinition) :
    decoratorCalls (some (.node l cs)) = cs.filterMap decoratorCall? := by
  have hcalls : decoratorCalls (some (.node l cs)) =
      (((cs.filter (·.kind.isNamed)).filter (·.kind == .decorator)).filterMap
        decoratorExpression?).filter (·.kind == .call) := if_pos hl
  rw [hcalls]
  clear hcalls
  induction cs with
  | nil => rfl
  | cons c cs ih =>
    by_cases hc : c.kind = .decorator
    · have hnamed : c.kind.isNamed = true := by rw [hc]; rfl
      have hkept : ((c :: cs).filter (·.kind.isNamed)).filter (·.kind == .decorator) =
          c :: (cs.filter (·.kind.isNamed)).filter (·.kind == .decorator) := by
        rw [List.filter_cons, if_pos hnamed, List.filter_cons, if_pos (by simp [hc])]
      have hcall : c.decoratorCall? = c.decoratorExpression?.filter (·.kind == .call) := if_pos hc
      rw [hkept]
      cases he : c.decoratorExpression? with
      | none =>
        rw [List.filterMap_cons_none he, List.filterMap_cons_none (by rw [hcall, he]; rfl), ih]
      | some e =>
        rw [List.filterMap_cons_some he, List.filter_cons]
        split
        · rename_i hkind
          rw [List.filterMap_cons_some (b := e) (by simp [hcall, he, hkind]), ih]
        · rename_i hkind
          rw [List.filterMap_cons_none (by rw [hcall, he]; exact if_neg hkind), ih]
    · have hnone : c.decoratorCall? = none := if_neg hc
      rw [List.filterMap_cons_none hnone, ← ih]
      cases hnamed : c.kind.isNamed <;> simp [hc, hnamed]

theorem decoratorCall?_mem {c call : Tree} (h : c.decoratorCall? = some call) :
    c.kind = .decorator ∧ call.kind = .call ∧ call ∈ c.nodes := by
  unfold decoratorCall? at h
  split at h
  · rename_i hkind
    obtain ⟨hexpression, hcall⟩ := Option.filter_eq_some_iff.mp h
    obtain ⟨e, he, rfl⟩ := Option.map_eq_some_iff.mp hexpression
    have hchild : e ∈ c.children := List.mem_of_mem_filter (List.mem_of_find?_eq_some he)
    exact ⟨hkind, by simpa using hcall, mem_nodes_of_child hchild (unparenthesized_mem e)⟩
  · cases h

/-- Only decorated definitions have Decorator events. -/
theorem mem_decoratorEvents_of_kind {n : Tree} {e : Event} (he : e ∈ n.eventsAt source file)
    (hkind : e.kind = .decorator) :
    n.kind = .decoratedDefinition ∧ e ∈ n.decoratorEvents source file := by
  unfold eventsAt at he
  split at he
  · rw [List.mem_singleton.mp he] at hkind
    cases hkind
  · rename_i hdecorated
    exact ⟨hdecorated, he⟩
  · split at he
    · rw [List.mem_singleton.mp he] at hkind
      cases hkind
    · cases he
  · cases he

theorem no_decorator_of_no_function (source file : String) {t : Tree}
    (h : t.containsFunction = false) :
    ∀ e ∈ t.events source file, e.kind ≠ .decorator := by
  intro e he hkind
  obtain ⟨n, hn, he⟩ := List.mem_flatMap.mp he
  have hdecorated := (mem_decoratorEvents_of_kind he hkind).2
  unfold decoratorEvents at hdecorated
  split at hdecorated
  · cases hdecorated
  · rename_i d hd
    split at hdecorated
    · cases hdecorated
    · rename_i hfunction
      have hmem := mem_nodes_trans t hn (child_mem_nodes hd)
      exact hfunction (by simpa using List.any_eq_false.mp h d hmem)

/-- The event of a call stands in the events of every subtree that the call is in. -/
theorem events_of_call (source file : String) {t call : Tree} (hmem : call ∈ t.nodes)
    (hcall : call.kind = .call) :
    ∃ before after, t.events source file = before ++ call.callEvent source file :: after := by
  obtain ⟨first, last, hsplit⟩ := List.append_of_mem hmem
  have hevent : call.eventsAt source file = [call.callEvent source file] := by
    rw [eventsAt, hcall]
    rfl
  refine ⟨first.flatMap (eventsAt source file), last.flatMap (eventsAt source file), ?_⟩
  rw [events, hsplit, List.flatMap_append, List.flatMap_cons, hevent]
  rfl

/-- The events of the decorators of a definition are answered within the decorators. -/
theorem answered_decorators (decorated : Tree → Event) {cs : List Tree}
    (hchildren : ∀ c ∈ cs, Answered (c.events source file))
    (hdecorators : ∀ c ∈ cs, c.kind = .decorator → c.containsFunction = false)
    (hanswer : ∀ call, (decorated call).IsAnsweredBy (call.callEvent source file)) :
    Answered ((cs.filterMap decoratorCall?).map decorated ++ cs.flatMap (events source file)) := by
  induction cs with
  | nil => exact .nil
  | cons c cs ih =>
    have hrest := ih (fun d hd => hchildren d (List.mem_cons_of_mem c hd))
      (fun d hd => hdecorators d (List.mem_cons_of_mem c hd))
    rw [List.flatMap_cons]
    cases hcall : c.decoratorCall? with
    | none =>
      rw [List.filterMap_cons_none hcall]
      exact .insert (hchildren c List.mem_cons_self) hrest
    | some call =>
      obtain ⟨hdecorator, hkind, hmem⟩ := decoratorCall?_mem hcall
      obtain ⟨before, after, hevents⟩ := events_of_call source file hmem hkind
      have hnone := no_decorator_of_no_function source file
        (hdecorators c List.mem_cons_self hdecorator)
      rw [hevents] at hnone
      have haround : Answered (before ++ after) := by
        apply Answered.of_no_decorator
        intro e he
        rcases List.mem_append.mp he with he | he
        · exact hnone e (List.mem_append_left _ he)
        · exact hnone e (List.mem_append_right _ (List.mem_cons_of_mem _ he))
      have hwhole := Answered.insert haround hrest
      rw [List.filterMap_cons_some hcall, List.map_cons, hevents]
      have hpair : Answered ([] ++ decorated call ::
          (((cs.filterMap decoratorCall?).map decorated ++ before) ++
            call.callEvent source file :: (after ++ cs.flatMap (events source file)))) :=
        Answered.pair (hanswer call) (by simpa using hwhole)
      simpa using hpair

/-- Every Decorator event of a file is answered. -/
theorem answered_events (source file : String) (t : Tree) (h : DecoratedAsInGrammar t) :
    Answered (t.events source file) := by
  induction t using Tree.induction with
  | node l cs ih =>
    have hchildren : ∀ c ∈ cs, Answered (c.events source file) := fun c hc => ih c hc (h.child hc)
    have hdecorators : ∀ c ∈ cs, c.kind = .decorator → c.containsFunction = false :=
      fun c hc => h.decorators c (mem_nodes_of_child hc (self_mem_nodes c))
    have hbelow : Answered (cs.flatMap (events source file)) := .flatMap hchildren
    rw [events_node]
    by_cases hl : l.kind = .decoratedDefinition
    · have hevents : eventsAt source file (.node l cs) =
          decoratorEvents source file (.node l cs) := by
        rw [eventsAt, show kind (.node l cs) = .decoratedDefinition from hl]
      rw [hevents, decoratorEvents]
      split
      · exact hbelow
      · rename_i d hd
        split
        · exact hbelow
        · split
          · exact hbelow
          · rename_i name hname
            rw [decoratorCalls_eq_filterMap cs hl]
            exact answered_decorators _ hchildren hdecorators fun call =>
              ⟨rfl, _, _, _, rfl, rfl⟩
    · have hnone : ∀ e ∈ eventsAt source file (.node l cs), e.kind ≠ .decorator :=
        fun e he hkind => hl (mem_decoratorEvents_of_kind he hkind).1
      exact .append (.of_no_decorator hnone) hbelow

/-- Routes, Decorator events and Function Call events of a file agree. Where no function stands
before a decorated one, the routes are seen in some of the Decorator events in the same order, with
their function, their line and a label that the rule accepts. Every Decorator event has a later
Function Call event of its own with its label, wherever functions stand. -/
theorem decorators_agree (source file : String) (rule : RouteRule) (t : Tree)
    (h : DecoratedAsInGrammar t) :
    (t.FrontsWithoutFunctions →
        Covered rule (t.routes source rule)
          ((t.events source file).filter (·.kind == .decorator))) ∧
      AnsweredApart (t.events source file) :=
  ⟨covered_routes source file rule h, (answered_events source file t h).apart⟩

/-- A decorated function that stands before the decorator of another one. -/
def frontText : String := "@app.get('/y')\ndef g(): pass\n@app.get('/x')\ndef f(): pass\n"

/-- The call `app.get('/y')` that starts at an offset. -/
def getCall (start row : Nat) : Tree :=
  .node { kind := .call, start, stop := start + 13, row }
    [.node { kind := .attribute, field := some .function, start, stop := start + 7, row }
      [.node { kind := .identifier, field := some .object, start, stop := start + 3, row } [],
      .node { kind := .identifier, field := some .attribute, start := start + 4, stop := start + 7,
              row } []],
    .node { kind := .argumentList, field := some .arguments, start := start + 7, stop := start + 13,
            row } [.node { kind := .string, start := start + 8, stop := start + 12, row } []]]

/-- The decorator `@app.get('/y')` that starts at an offset. -/
def getDecorator (start row : Nat) : Tree :=
  .node { kind := .decorator, start, stop := start + 14, row } [getCall (start + 1) row]

/-- The definition `def g(): pass` that starts at an offset. -/
def passDefinition (start row : Nat) : Tree :=
  .node { kind := .functionDefinition, field := some .definition, start, stop := start + 13, row }
    [.node { kind := .identifier, field := some .name, start := start + 4, stop := start + 5, row }
      []]

/-- A definition under one decorator, on two lines. -/
def decoratedPass (start row : Nat) : Tree :=
  .node { kind := .decoratedDefinition, start, stop := start + 28, row }
    [getDecorator start row, passDefinition (start + 15) (row + 1)]

/-- A decorated function in a node of kind `k`, which is the first child of another decorated
definition. -/
def frontTree (k : Kind) : Tree :=
  .node { kind := .decoratedDefinition, start := 0, stop := 57 }
    [.node { kind := k, start := 0, stop := 28 } [decoratedPass 0 0],
    getDecorator 29 2, passDefinition 44 3]

theorem mem_decoratedDefinitions {n t : Tree} (hn : n ∈ t.nodes)
    (hkind : n.kind = .decoratedDefinition) :
    n ∈ t.nodes.filter (·.kind == .decoratedDefinition) :=
  List.mem_filter.mpr ⟨hn, by simp [hkind]⟩

theorem cases_frontTree {k : Kind} (hk : k ≠ .decoratedDefinition) {n : Tree}
    (hn : n ∈ (frontTree k).nodes) (hkind : n.kind = .decoratedDefinition) :
    n = frontTree k ∨ n = decoratedPass 0 0 := by
  have hnodes : (frontTree k).nodes.filter (·.kind == .decoratedDefinition) =
      [frontTree k, decoratedPass 0 0] := by
    rw [nodes_eq_preorder, frontTree, preorder, preorderAll, preorder, List.filter_cons_of_pos rfl,
      List.cons_append, List.filter_cons_of_neg (by simpa [kind, label] using hk)]
    rfl
  have hmem := mem_decoratedDefinitions hn hkind
  rwa [hnodes, List.mem_pair] at hmem

theorem decoratedAsInGrammar_frontTree : DecoratedAsInGrammar (frontTree .block) := by
  refine ⟨by decide +kernel, fun n hn hkind => ?_⟩
  rcases cases_frontTree (by decide) hn hkind with rfl | rfl <;> rfl

/-- A block in front meets the grammar's conditions, and the routes come in the other order than the
events of their decorators. -/
theorem not_covered_frontTree :
    DecoratedAsInGrammar (frontTree .block) ∧
      ¬ Covered .fastapi ((frontTree .block).routes frontText .fastapi)
        (((frontTree .block).events frontText "app.py").filter (·.kind == .decorator)) := by
  have hroutes : (frontTree .block).routes frontText .fastapi =
      [⟨"/y", "g", 2⟩, ⟨"/x", "f", 4⟩] := by decide +kernel
  have hevents : ((frontTree .block).events frontText "app.py").filter (·.kind == .decorator) =
      [⟨"app.py", some 4, .decorator, .decorator "app.get" "f"⟩,
        ⟨"app.py", some 2, .decorator, .decorator "app.get" "g"⟩] := by decide +kernel
  refine ⟨decoratedAsInGrammar_frontTree, ?_⟩
  rw [hroutes, hevents]
  rintro ⟨seen, hsub, hseen⟩
  -- As many events are seen as there are events, so the first route is seen in the first event.
  obtain rfl := hsub.eq_of_length hseen.length_eq.symm
  obtain ⟨⟨hline, -⟩, -⟩ := List.forall₂_cons.mp hseen
  cases hline

/-- A function under two decorators, of which the second one is a call. -/
def stackedText : String := "@cache\n@app.get('/x')\ndef f(): pass\n"

def stackedTree : Tree :=
  .node { kind := .decoratedDefinition, start := 0, stop := 35 }
    [.node { kind := .decorator, start := 0, stop := 6 }
      [.node { kind := .identifier, start := 1, stop := 6 } []],
    .node { kind := .decorator, start := 7, stop := 21, row := 1 }
      [.node { kind := .call, start := 8, stop := 21, row := 1 }
        [.node { kind := .attribute, field := some .function, start := 8, stop := 15, row := 1 }
          [.node { kind := .identifier, field := some .object, start := 8, stop := 11, row := 1 }
            [],
          .node { kind := .identifier, field := some .attribute, start := 12, stop := 15, row := 1 }
            []],
        .node { kind := .argumentList, field := some .arguments, start := 15, stop := 21, row := 1 }
          [.node { kind := .string, start := 16, stop := 20, row := 1 } []]]],
    .node
      { kind := .functionDefinition, field := some .definition, start := 22, stop := 35, row := 2 }
      [.node { kind := .identifier, field := some .name, start := 26, stop := 27, row := 2 } []]]

theorem decoratedDefinitions_stackedTree :
    stackedTree.nodes.filter (·.kind == .decoratedDefinition) = [stackedTree] := by
  rw [nodes_eq_preorder]
  rfl

theorem eq_stackedTree_of_decorated {n : Tree} (hn : n ∈ stackedTree.nodes)
    (hkind : n.kind = .decoratedDefinition) : n = stackedTree := by
  have hmem := mem_decoratedDefinitions hn hkind
  rw [decoratedDefinitions_stackedTree] at hmem
  exact List.mem_singleton.mp hmem

theorem decoratedAsInGrammar_stackedTree : DecoratedAsInGrammar stackedTree := by
  refine ⟨by decide, fun n hn hkind => ?_⟩
  obtain rfl := eq_stackedTree_of_decorated hn hkind
  rfl

theorem frontsWithoutFunctions_stackedTree : FrontsWithoutFunctions stackedTree := by
  intro n hn hkind d _ _
  obtain rfl := eq_stackedTree_of_decorated hn hkind
  decide +kernel

/-- The route of the stacked decorators, seen in an event and answered by a call. -/
theorem decorators_agree_stackedTree :
    DecoratedAsInGrammar stackedTree ∧ FrontsWithoutFunctions stackedTree ∧
      stackedTree.routes stackedText .fastapi = [⟨"/x", "f", 3⟩] ∧
      Covered .fastapi [⟨"/x", "f", 3⟩]
        ((stackedTree.events stackedText "app.py").filter (·.kind == .decorator)) ∧
      AnsweredApart (stackedTree.events stackedText "app.py") := by
  have hgrammar := decoratedAsInGrammar_stackedTree
  have hfronts := frontsWithoutFunctions_stackedTree
  have hroutes : stackedTree.routes stackedText .fastapi = [⟨"/x", "f", 3⟩] := by decide +kernel
  obtain ⟨hcovered, hanswered⟩ :=
    decorators_agree stackedText "app.py" .fastapi stackedTree hgrammar
  exact ⟨hgrammar, hfronts, hroutes, hroutes ▸ hcovered hfronts, hanswered⟩

end Triage.Python.Tree
