import Triage.Proofs.PaddedCalls

/-!
# What is extracted from padded trees

Imports are the same whatever is put in. The other records and events are the same exactly when no
joined line counts as an argument and none hides a callee with a name, a call that decorates a
function, or the pattern of a route. Comments never do.
-/

namespace Triage.Python

/-- What the events of calls and decorators say, in the order of the stream. -/
def Tree.details (source file : String) (t : Tree) : List EventDetails :=
  ((t.events source file).filter (·.kind != .attributeAccess)).map (·.details)

namespace PaddedTree

variable {source source' : String} {p : PaddedTree}

section Imports

theorem namedOf_plain (k : Kind) (p : PaddedTree) :
    p.plain.namedChildren.filter (·.kind == k) =
      (p.children.filter fun c => c.kind == k && c.kind.isNamed).map plain := by
  rw [Tree.namedChildren, List.filter_filter]
  exact filter_children_plain (fun kind _ => kind == k && kind.isNamed) p

theorem namedOf_full {k : Kind} (hk : k.isExtra = false) (p : PaddedTree) :
    p.full.namedChildren.filter (·.kind == k) =
      (p.children.filter fun c => c.kind == k && c.kind.isNamed).map full := by
  rw [Tree.namedChildren, List.filter_filter]
  refine filter_children_full (q := fun kind _ => kind == k && kind.isNamed) fun x _ => ?_
  have hne : (x.kind == k) = false := by
    rw [beq_eq_false_iff_ne]
    rintro rfl
    cases x <;> cases hk
  rw [hne, Bool.false_and]

theorem map_map_congr {α β γ : Type} {f g : α → β} {k k' : β → γ} {as : List α}
    (h : ∀ a ∈ as, k' (f a) = k (g a)) : (as.map f).map k' = (as.map g).map k := by
  rw [List.map_map, List.map_map]
  exact List.map_congr_left h

/-- A dotted name is the same, also with joined lines between its parts. -/
theorem dottedText_full (h : p.KeepsTexts source source') :
    p.full.dottedText source' = p.plain.dottedText source := by
  rw [Tree.dottedText, Tree.dottedText, namedOf_full rfl, namedOf_plain]
  congr 1
  apply map_map_congr
  intro c hc
  have hkind : c.kind = .identifier := by
    have hboth := (List.mem_filter.mp hc).2
    rw [Bool.and_eq_true] at hboth
    exact eq_of_beq hboth.1
  exact (h.child (List.mem_of_mem_filter hc)).text (Or.inl hkind)

theorem importedModule?_full (h : p.KeepsTexts source source') :
    p.full.importedModule? source' = p.plain.importedModule? source := by
  rw [Tree.importedModule?, Tree.importedModule?, kind_full, kind_plain]
  split
  · rw [dottedText_full h]
  · rw [childBy?_full, childBy?_plain]
    cases hc : p.childBy? .name with
    | none => rfl
    | some c => exact congrArg some (dottedText_full (h.child (mem_children_of_childBy? hc)))
  · rfl

theorem fromModule_full (h : p.KeepsTexts source source') :
    p.full.fromModule source' = p.plain.fromModule source := by
  rw [Tree.fromModule, Tree.fromModule, childBy?_full, childBy?_plain]
  cases hm : p.childBy? .moduleName with
  | none => rfl
  | some m =>
    have hkeeps := h.child (mem_children_of_childBy? hm)
    simp only [Option.map_some, kind_full, kind_plain]
    split
    · exact dottedText_full hkeeps
    · rw [← List.head?_filter, ← List.head?_filter, namedOf_full rfl, namedOf_plain,
        List.head?_map, List.head?_map]
      cases hc : (m.children.filter fun c => c.kind == .dottedName && c.kind.isNamed).head? with
      | none => rfl
      | some c =>
        have hmem : c ∈ m.children := List.mem_of_mem_filter (List.mem_of_head? hc)
        exact dottedText_full (hkeeps.child hmem)

theorem importedModules_full (h : p.KeepsTexts source source') :
    p.full.importedModules source' = p.plain.importedModules source := by
  rw [Tree.importedModules, Tree.importedModules, kind_full, kind_plain]
  split
  · have hfull := filter_children_full (q := fun _ field => field == some .name) (p := p)
      fun _ _ => rfl
    have hplain := filter_children_plain (fun _ field => field == some .name) p
    rw [Tree.childrenBy, Tree.childrenBy, hfull, hplain, List.filterMap_map, List.filterMap_map]
    apply List.filterMap_congr
    intro c hc
    exact importedModule?_full (h.child (List.mem_of_mem_filter hc))
  · rw [fromModule_full h]
  · rfl
  · rfl

/-- Imports do not depend on the padding. -/
theorem dependencies_full (h : p.KeepsTexts source source') :
    p.full.dependencies source' = p.plain.dependencies source := by
  rw [Tree.dependencies, Tree.dependencies, flatMap_nodes_plain,
    flatMap_nodes_full (by intro x; cases x <;> rfl)]
  exact List.flatMap_congr fun n hn => importedModules_full (h.of_mem hn)

end Imports

section Views

/-- A way to see a padded tree as a tree, of which the padding shows nothing but itself. -/
structure IsView (view : PaddedTree → Tree) : Prop where
  kind : ∀ p, (view p).kind = p.kind
  childBy? : ∀ f p, (view p).childBy? f = (p.childBy? f).map view
  decoratorCalls : ∀ p, (view p).children.filterMap Tree.decoratorCall? =
    p.children.filterMap fun c => (view c).decoratorCall?
  visits : ∀ {β : Type} (f : Option Tree × Tree → List β),
    (∀ v, v.2.kind.isExtra = true → f v = []) → ∀ p, ((view p).visits none).flatMap f =
      (p.visits none).flatMap fun v => f (v.1.map view, view v.2)

theorem isView_plain : IsView plain where
  kind := kind_plain
  childBy? := childBy?_plain
  decoratorCalls p := by rw [children_plain, List.filterMap_map]; rfl
  visits f _ p := by
    have h := congrArg (List.flatMap f) (visits_plain p none)
    rwa [List.flatMap_map] at h

theorem isView_full : IsView full where
  kind := kind_full
  childBy? := childBy?_full
  decoratorCalls p := by
    rw [List.filterMap_eq_flatMap_toList, List.filterMap_eq_flatMap_toList]
    refine flatMap_children_full fun x _ => ?_
    cases x <;> rfl
  visits f hf p := flatMap_visits_full (fun _ x => hf _ (by cases x <;> rfl)) p none

variable {view : PaddedTree → Tree}

theorem IsView.nodes (hv : IsView view) {β : Type} (f : Tree → List β)
    (hf : ∀ t, t.kind.isExtra = true → f t = []) (p : PaddedTree) :
    (view p).nodes.flatMap f = p.nodes.flatMap fun n => f (view n) := by
  rw [Tree.nodes_eq_preorder, ← Tree.map_visits none, PaddedTree.nodes, List.flatMap_map,
    List.flatMap_map]
  exact hv.visits (fun v => f v.2) (fun v => hf v.2) p

/-- The calls, in the order of the walk. -/
def callNodes (p : PaddedTree) : List PaddedTree := p.nodes.filter (·.kind == .call)

/-- The name and the number of arguments of a call that has a record. -/
def recordIn (view : PaddedTree → Tree) (source : String) (c : PaddedTree) :
    Option (String × Nat) :=
  ((view c).callRecord? source).map fun r => (r.name, r.args)

theorem filterMap_filter {α β : Type} (q : α → Bool) (f : α → Option β) (as : List α) :
    (as.filter q).filterMap f = as.flatMap fun a => if q a then (f a).toList else [] := by
  induction as with
  | nil => rfl
  | cons a as ih =>
    cases hq : q a with
    | false => simp [hq, ih]
    | true => cases hf : f a <;> simp [hq, hf, ih]

theorem calls_view (hv : IsView view) (source : String) (p : PaddedTree) :
    ((view p).calls source).map (fun r => (r.name, r.args)) =
      p.callNodes.filterMap (recordIn view source) := by
  rw [Tree.calls, List.map_filterMap, filterMap_filter, callNodes, filterMap_filter, hv.nodes]
  · simp only [hv.kind]
    rfl
  · intro t ht
    have hkind : (t.kind == .call) = false := by
      rw [beq_eq_false_iff_ne]
      intro hcall
      rw [hcall] at ht
      cases ht
    rw [hkind]
    rfl

/-- The name of the function that a definition decorates. -/
def decoratedName? (p : PaddedTree) : Option PaddedTree :=
  (p.childBy? .definition).bind fun d =>
    if d.kind = .functionDefinition then d.childBy? .name else none

/-- The children of a decorated function, each with the function's name. -/
def decorationsAt (p : PaddedTree) : List (PaddedTree × PaddedTree) :=
  if p.kind = .decoratedDefinition then
    match p.decoratedName? with
    | some name => p.children.map fun c => (name, c)
    | none => []
  else []

def decorations (p : PaddedTree) : List (PaddedTree × PaddedTree) := p.nodes.flatMap decorationsAt

/-- What a Decorator event says about a decoration. -/
def decorationIn (view : PaddedTree → Tree) (source : String) (d : PaddedTree × PaddedTree) :
    Option EventDetails :=
  (view d.2).decoratorCall?.map fun call =>
    .decorator (call.callLabel source) ((view d.1).text source)

/-- What the events of a node say. -/
def detailsAt (view : PaddedTree → Tree) (source : String) (n : PaddedTree) : List EventDetails :=
  if n.kind = .call then
    [.call ((view n).callLabel source) (view n).positionalArguments.length]
  else n.decorationsAt.filterMap (decorationIn view source)

theorem decoratorCalls_eq {t : Tree} (h : t.kind = .decoratedDefinition) :
    Tree.decoratorCalls (some t) = t.children.filterMap Tree.decoratorCall? := by
  obtain ⟨l, cs⟩ := t
  exact Tree.decoratorCalls_eq_filterMap cs h

theorem decoratorEvents_view (hv : IsView view) (source file : String) {n : PaddedTree}
    (hn : n.kind = .decoratedDefinition) :
    ((view n).decoratorEvents source file).map (·.details) =
      n.decorationsAt.filterMap (decorationIn view source) := by
  have hkind : (view n).kind = .decoratedDefinition := by rw [hv.kind, hn]
  rw [Tree.decoratorEvents, hv.childBy?, decorationsAt, if_pos hn, decoratedName?,
    decoratorCalls_eq hkind, hv.decoratorCalls]
  cases n.childBy? .definition with
  | none => rfl
  | some d =>
    simp only [Option.map_some, hv.kind, hv.childBy?, Option.bind_some]
    by_cases hd : d.kind = .functionDefinition
    · rw [if_neg (not_not_intro hd), if_pos hd]
      cases d.childBy? .name with
      | none => rfl
      | some name =>
        simp only [Option.map_some, List.map_filterMap, List.filterMap_map]
        apply List.filterMap_congr
        intro c _
        rw [Option.map_map]
        rfl
    · rw [if_pos hd, if_neg hd]
      rfl

theorem detailsAt_view (hv : IsView view) (source file : String) (n : PaddedTree) :
    (((view n).eventsAt source file).filter (·.kind != .attributeAccess)).map (·.details) =
      n.detailsAt view source := by
  rw [Tree.eventsAt, detailsAt, hv.kind]
  split
  · rename_i hkind
    rw [if_pos hkind]
    rfl
  · rename_i hkind
    have hkept : ((view n).decoratorEvents source file).filter (·.kind != .attributeAccess) =
        (view n).decoratorEvents source file := by
      rw [List.filter_eq_self]
      intro e he
      rw [(Tree.kind_of_mem_decoratorEvents he).1]
      rfl
    rw [if_neg (by rw [hkind]; decide), hkept, decoratorEvents_view hv source file hkind]
  · rename_i hkind
    have hnone : n.decorationsAt = [] := if_neg (by rw [hkind]; decide)
    rw [if_neg (by rw [hkind]; decide), hnone]
    split <;> rfl
  · rename_i hcall hdecorated _
    have hnone : n.decorationsAt = [] := if_neg hdecorated
    rw [if_neg hcall, hnone]
    rfl

theorem details_view (hv : IsView view) (source file : String) (p : PaddedTree) :
    (view p).details source file = p.nodes.flatMap (detailsAt view source) := by
  rw [Tree.details, Tree.events, List.filter_flatMap, List.map_flatMap, hv.nodes]
  · exact List.flatMap_congr fun n _ => detailsAt_view hv source file n
  · intro t ht
    have hnone : t.eventsAt source file = [] := by
      rw [Tree.eventsAt]
      split
      · rename_i hkind
        rw [hkind] at ht
        cases ht
      · rename_i hkind
        rw [hkind] at ht
        cases ht
      · rename_i hkind
        rw [hkind] at ht
        cases ht
      · rfl
    rw [hnone]
    rfl

/-- The children of the decorated definition above a function, each with the function's name. -/
def registrationsAt (v : Option PaddedTree × PaddedTree) : List (PaddedTree × PaddedTree) :=
  if v.2.kind = .functionDefinition then
    match v.2.childBy? .name, v.1 with
    | some name, some d =>
      if d.kind = .decoratedDefinition then d.children.map fun c => (name, c) else []
    | _, _ => []
  else []

def registrations (p : PaddedTree) : List (PaddedTree × PaddedTree) :=
  (p.visits none).flatMap registrationsAt

/-- The pattern and the handler of the route that a decorator registers. -/
def routeIn (view : PaddedTree → Tree) (source : String) (rule : RouteRule)
    (d : PaddedTree × PaddedTree) : Option (String × String) :=
  ((view d.2).decoratorCall?.bind fun call => call.routePattern? source rule).map fun route =>
    (route, (view d.1).text source)

theorem routesOf_view (hv : IsView view) (source : String) (rule : RouteRule)
    (v : Option PaddedTree × PaddedTree) :
    (Tree.routesOf source rule (v.1.map view, view v.2)).map (fun r => (r.route, r.handler)) =
      (registrationsAt v).filterMap (routeIn view source rule) := by
  rw [Tree.routesOf, registrationsAt, hv.kind]
  by_cases hkind : v.2.kind = .functionDefinition
  · rw [if_pos hkind, if_pos hkind, Tree.routesAt, hv.childBy?]
    cases v.2.childBy? .name with
    | none => rfl
    | some name =>
      cases v.1 with
      | none => rfl
      | some d =>
        have hparent : Cursor.parent? ⟨view v.2, ((some d).map view).toList.map fun p => ⟨p, []⟩⟩ =
            some (view d) := rfl
        simp only [Option.map_some] at hparent ⊢
        rw [hparent]
        by_cases hd : d.kind = .decoratedDefinition
        · have hdView : (view d).kind = .decoratedDefinition := by rw [hv.kind, hd]
          rw [if_pos hd, decoratorCalls_eq hdView, hv.decoratorCalls, List.filterMap_filterMap,
            List.map_filterMap, List.filterMap_map]
          apply List.filterMap_congr
          intro c _
          cases hcall : (view c).decoratorCall? with
          | none => simp [routeIn, hcall]
          | some call =>
            cases hroute : call.routePattern? source rule <;> simp [routeIn, hcall, hroute]
        · rw [if_neg hd, Tree.decoratorCalls_eq_nil]
          · rfl
          · intro t ht
            obtain rfl := Option.mem_some_iff.mp ht
            rwa [hv.kind]
  · rw [if_neg hkind, if_neg hkind]
    rfl

theorem routes_view (hv : IsView view) (source : String) (rule : RouteRule) (p : PaddedTree) :
    ((view p).routes source rule).map (fun r => (r.route, r.handler)) =
      p.registrations.filterMap (routeIn view source rule) := by
  rw [Tree.routes_eq_visits, List.map_flatMap, registrations, List.filterMap_flatMap,
    hv.visits]
  · exact List.flatMap_congr fun v _ => routesOf_view hv source rule v
  · intro v hextra
    have hne : v.2.kind ≠ .functionDefinition := by
      intro hkind
      rw [hkind] at hextra
      cases hextra
    rw [Tree.routesOf_eq_nil (Or.inl hne)]
    rfl

end Views

end PaddedTree

end Triage.Python
