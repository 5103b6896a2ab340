import Triage.Proofs.PaddedExtraction

/-!
# When padding changes nothing

The extraction of a tree and that of the padded tree agree exactly when the joined lines keep apart
from the places where they are read as something else. Each part of the condition is about one of
these places, and each part of the extraction needs it.
-/

namespace Triage

def EventDetails.isCall : EventDetails → Bool
  | .call _ _ => true
  | _ => false

namespace Python

/-- The extraction from two trees with their sources is the same, up to lines and to the attributes
that are read. -/
structure SameExtraction (source source' file : String) (t t' : Tree) : Prop where
  dependencies : t'.dependencies source' = t.dependencies source
  routes : ∀ rule, (t'.routes source' rule).map (fun r => (r.route, r.handler)) =
    (t.routes source rule).map fun r => (r.route, r.handler)
  calls : (t'.calls source').map (fun r => (r.name, r.args)) =
    (t.calls source).map fun r => (r.name, r.args)
  details : t'.details source' file = t.details source file

namespace PaddedTree

/-- A call that some rule takes for a route, when it decorates a function. -/
def Registers (source : String) (call : PaddedTree) : Prop :=
  ∃ rule, (call.plain.routePattern? source rule).isSome = true

/-- No joined line is read as something else. -/
structure JoinsApart (source : String) (p : PaddedTree) : Prop where
  /-- None stands among the arguments of a call. -/
  arguments : ∀ c ∈ p.callNodes, c.joinedArguments = 0
  /-- None hides a callee with a name. -/
  callees : ∀ c ∈ p.callNodes, ∀ f ∈ c.childBy? .function, f.KeepsName source
  /-- None hides a call that decorates a function. -/
  decorators : ∀ d ∈ p.decorations, d.2.full.hidesDecorator = true → d.2.call? = none
  /-- None hides or parts the pattern of a route. -/
  routes : ∀ d ∈ p.registrations, ∀ call ∈ d.2.call?, call.Registers source →
    d.2.full.hidesDecorator = false ∧ call.hidesRoute = false

/-- Where every item stays or is lost, a list stays exactly when none is lost. -/
theorem filterMap_eq_iff {α β : Type} {f g : α → Option β} {as : List α}
    (h : ∀ a ∈ as, g a = f a ∨ g a = none) :
    as.filterMap g = as.filterMap f ↔ ∀ a ∈ as, g a = f a := by
  constructor
  · intro heq
    have hle : ∀ bs : List α, (∀ a ∈ bs, g a = f a ∨ g a = none) →
        (bs.filterMap g).length ≤ (bs.filterMap f).length := by
      intro bs hbs
      induction bs with
      | nil => exact Nat.le_refl 0
      | cons b bs ih =>
        have hrest := ih fun a ha => hbs a (List.mem_cons_of_mem b ha)
        rcases hbs b List.mem_cons_self with hb | hb
        · cases hf : f b <;> simp [hb, hf, hrest]
        · cases hf : f b with
          | none => simp [hb, hf, hrest]
          | some _ => simp [hb, hf, Nat.le_succ_of_le hrest]
    induction as with
    | nil => simp
    | cons b bs ih =>
      have hbs : ∀ a ∈ bs, g a = f a ∨ g a = none := fun a ha => h a (List.mem_cons_of_mem b ha)
      have hlength := hle bs hbs
      have hb : g b = f b := by
        rcases h b List.mem_cons_self with hb | hb
        · exact hb
        · cases hf : f b with
          | none => exact hb
          | some x =>
            have hlengths := congrArg List.length heq
            rw [List.filterMap_cons_none hb, List.filterMap_cons_some hf,
              List.length_cons] at hlengths
            omega
      intro a ha
      rcases List.mem_cons.mp ha with rfl | ha
      · exact hb
      · refine ih hbs ?_ a ha
        cases hf : f b with
        | none =>
          rwa [List.filterMap_cons_none (hb.trans hf), List.filterMap_cons_none hf] at heq
        | some x =>
          rw [List.filterMap_cons_some (hb.trans hf), List.filterMap_cons_some hf] at heq
          exact (List.cons.inj heq).2
  · intro heq
    exact List.filterMap_congr heq

section Streams

variable {view : PaddedTree → Tree} {source : String}

theorem isCall_decorationIn {d : PaddedTree × PaddedTree} {e : EventDetails}
    (h : decorationIn view source d = some e) : e.isCall = false := by
  obtain ⟨call, _, rfl⟩ := Option.map_eq_some_iff.mp h
  rfl

/-- The details of calls, one for each call. -/
theorem filter_isCall_details (p : PaddedTree) :
    (p.nodes.flatMap (detailsAt view source)).filter EventDetails.isCall =
      p.callNodes.map fun c =>
        .call ((view c).callLabel source) (view c).positionalArguments.length := by
  rw [callNodes]
  induction p.nodes with
  | nil => rfl
  | cons n ns ih =>
    rw [List.flatMap_cons, List.filter_append, ih, detailsAt]
    split
    · rename_i hkind
      have hkept : (n :: ns).filter (·.kind == .call) = n :: ns.filter (·.kind == .call) :=
        List.filter_cons_of_pos (by simp [hkind])
      rw [hkept]
      rfl
    · rename_i hkind
      have hnone : (n.decorationsAt.filterMap (decorationIn view source)).filter
          EventDetails.isCall = [] := by
        rw [List.filter_eq_nil_iff]
        intro e he
        obtain ⟨d, _, hd⟩ := List.mem_filterMap.mp he
        simp [isCall_decorationIn hd]
      rw [hnone]
      simp [hkind]

/-- The other details, one for each decoration that is a call. -/
theorem filter_not_isCall_details (p : PaddedTree) :
    (p.nodes.flatMap (detailsAt view source)).filter (!·.isCall) =
      p.decorations.filterMap (decorationIn view source) := by
  rw [decorations, List.filterMap_flatMap, List.filter_flatMap]
  apply List.flatMap_congr
  intro n _
  rw [detailsAt]
  split
  · rename_i hkind
    have hnone : n.decorationsAt = [] := if_neg (by rw [hkind]; decide)
    rw [hnone]
    rfl
  · rw [List.filter_eq_self]
    intro e he
    obtain ⟨d, _, hd⟩ := List.mem_filterMap.mp he
    simp [isCall_decorationIn hd]

end Streams

section Nodes

variable {source source' : String} {p : PaddedTree}

theorem recordIn_eq (view : PaddedTree → Tree) (source : String) (c : PaddedTree) :
    recordIn view source c =
      (((view c).childBy? .function).bind (·.simpleName? source)).map fun name =>
        (name, (view c).positionalArguments.length) := by
  rw [recordIn, Tree.callRecord?]
  cases (view c).childBy? .function with
  | none => rfl
  | some f => cases hname : f.simpleName? source <;> simp [hname]

/-- A call says the same in its record and in its event exactly when nothing counts as an argument
of it and no name of its callee is hidden. -/
theorem call_full_iff {c : PaddedTree} (h : c.KeepsTexts source source') :
    (recordIn full source' c = recordIn plain source c ∧
        c.full.callLabel source' = c.plain.callLabel source ∧
        c.full.positionalArguments.length = c.plain.positionalArguments.length) ↔
      c.joinedArguments = 0 ∧ ∀ f ∈ c.childBy? .function, f.KeepsName source := by
  have hlength : c.full.positionalArguments.length = c.plain.positionalArguments.length ↔
      c.joinedArguments = 0 := by
    rw [length_positionalArguments_full, positionalArguments_plain, List.length_map]
    omega
  rw [recordIn_eq, recordIn_eq, Tree.callLabel, Tree.callLabel, childBy?_full, childBy?_plain]
  cases hf : c.childBy? .function with
  | none =>
    constructor
    · rintro ⟨-, -, hsame⟩
      exact ⟨hlength.mp hsame, by simp⟩
    · rintro ⟨hjoined, -⟩
      exact ⟨rfl, rfl, hlength.mpr hjoined⟩
  | some f =>
    have hname := name_full_iff (h.child (mem_children_of_childBy? hf))
    simp only [Option.map_some, Option.bind_some, Option.getD_some]
    constructor
    · rintro ⟨hrecord, hlabel, hsame⟩
      refine ⟨hlength.mp hsame, ?_⟩
      intro g hg
      obtain rfl := Option.mem_some_iff.mp hg
      refine hname.mp ⟨?_, hlabel⟩
      rw [hsame] at hrecord
      exact Option.map_injective (fun a b hab => (Prod.mk.inj hab).1) hrecord
    · rintro ⟨hjoined, hkeeps⟩
      obtain ⟨hsimple, hlabel⟩ := hname.mpr (hkeeps f rfl)
      have hsame := hlength.mpr hjoined
      exact ⟨by rw [hsimple, hsame], hlabel, hsame⟩

/-- A record is the same or lost when nothing counts as an argument of the call. -/
theorem recordIn_full {c : PaddedTree} (h : c.KeepsTexts source source')
    (hlength : c.full.positionalArguments.length = c.plain.positionalArguments.length) :
    recordIn full source' c = recordIn plain source c ∨ recordIn full source' c = none := by
  rw [recordIn_eq, recordIn_eq, childBy?_full, childBy?_plain, hlength]
  cases hf : c.childBy? .function with
  | none => exact Or.inl rfl
  | some f =>
    rcases simpleName?_full (h.child (mem_children_of_childBy? hf)) with heq | ⟨hnone, -⟩
    · exact Or.inl (by simp [heq])
    · exact Or.inr (by simp [hnone])

theorem decorationIn_of_hidden {d : PaddedTree × PaddedTree}
    (h : d.2.full.hidesDecorator = true) : decorationIn full source' d = none := by
  rw [decorationIn, decoratorCall?_of_hidesDecorator h]
  rfl

theorem routeIn_of_hidden {rule : RouteRule} {d : PaddedTree × PaddedTree}
    (h : d.2.full.hidesDecorator = true) : routeIn full source' rule d = none := by
  rw [routeIn, decoratorCall?_of_hidesDecorator h]
  rfl

theorem routeIn_of_hidesRoute (rule : RouteRule) {d : PaddedTree × PaddedTree} {call : PaddedTree}
    (h : d.2.KeepsTexts source source') (hcall : d.2.call? = some call)
    (hargument : call.joinedArguments = 0) (hhides : call.hidesRoute = true) :
    routeIn full source' rule d = none := by
  rcases decoratorCall?_full d.2 with hfull | ⟨hhidden, -⟩
  · have hnone := routePattern?_of_hidesRoute source' rule (h.of_mem (call?_mem hcall).1)
      hargument hhides
    rw [routeIn, hfull, hcall]
    simp [hnone]
  · exact routeIn_of_hidden hhidden

/-- The event of a decoration that is not hidden is the same when the label of its call is. -/
theorem decorationIn_full {d : PaddedTree × PaddedTree}
    (hname : d.1.full.text source' = d.1.plain.text source)
    (hlabel : ∀ call ∈ d.2.call?, call.full.callLabel source' = call.plain.callLabel source)
    (hshows : d.2.full.hidesDecorator = false) :
    decorationIn full source' d = decorationIn plain source d := by
  rcases decoratorCall?_full d.2 with hcall | ⟨hhidden, -⟩
  · rw [decorationIn, decorationIn, hcall, decoratorCall?_plain]
    cases hc : d.2.call? with
    | none => rfl
    | some call => simp [hname, hlabel call hc]
  · rw [hshows] at hhidden
    cases hhidden

/-- The route of a decorator is the same when neither the decorator nor the route is hidden. -/
theorem routeIn_full (rule : RouteRule) {d : PaddedTree × PaddedTree}
    (h : d.2.KeepsTexts source source')
    (hname : d.1.full.text source' = d.1.plain.text source)
    (harguments : ∀ call ∈ d.2.call?, call.joinedArguments = 0)
    (hshows : d.2.full.hidesDecorator = false)
    (hroute : ∀ call ∈ d.2.call?, call.hidesRoute = false) :
    routeIn full source' rule d = routeIn plain source rule d := by
  rcases decoratorCall?_full d.2 with hcall | ⟨hhidden, -⟩
  · rw [routeIn, routeIn, hcall, decoratorCall?_plain]
    cases hc : d.2.call? with
    | none => rfl
    | some call =>
      have hkeeps := h.of_mem (call?_mem hc).1
      have hpattern := routePattern?_full rule hkeeps (harguments call hc) (hroute call hc)
      simp [hname, hpattern]
  · rw [hshows] at hhidden
    cases hhidden

end Nodes

section Trees

variable {source source' : String} {p : PaddedTree}

theorem mem_callNodes {c : PaddedTree} : c ∈ p.callNodes ↔ c ∈ p.nodes ∧ c.kind = .call := by
  rw [callNodes, List.mem_filter, beq_iff_eq]

/-- A decoration is the name of a function and a node. -/
theorem mem_decorationsAt {n : PaddedTree} {d : PaddedTree × PaddedTree}
    (hd : d ∈ n.decorationsAt) :
    (∃ f ∈ n.nodes, f.kind = .functionDefinition ∧ f.childBy? .name = some d.1) ∧
      d.2 ∈ n.nodes := by
  unfold decorationsAt at hd
  split at hd
  · cases hname : n.decoratedName? with
    | none =>
      rw [hname] at hd
      cases hd
    | some name =>
      rw [hname] at hd
      obtain ⟨c, hc, rfl⟩ := List.mem_map.mp hd
      obtain ⟨f, hf, hname⟩ := Option.bind_eq_some_iff.mp hname
      split at hname
      · rename_i hkind
        have hmem : f ∈ n.nodes :=
          mem_nodes_of_child (mem_children_of_childBy? hf) (self_mem_nodes f)
        exact ⟨⟨f, hmem, hkind, hname⟩, mem_nodes_of_child hc (self_mem_nodes c)⟩
      · cases hname
  · cases hd

theorem mem_visits {parent? : Option PaddedTree} {v : Option PaddedTree × PaddedTree}
    (hv : v ∈ p.visits parent?) :
    v.2 ∈ p.nodes ∧ (v.1 = parent? ∨ ∃ d ∈ p.nodes, v.1 = some d) := by
  constructor
  · rw [← map_visits parent?]
    exact List.mem_map_of_mem hv
  · induction p using PaddedTree.induction generalizing parent? with
    | step p ih =>
      rw [visits_eq] at hv
      rcases List.mem_cons.mp hv with rfl | hv
      · exact Or.inl rfl
      · obtain ⟨c, hc, hv⟩ := List.mem_flatMap.mp hv
        rcases ih c hc hv with heq | ⟨d, hd, heq⟩
        · exact Or.inr ⟨p, self_mem_nodes p, heq⟩
        · exact Or.inr ⟨d, mem_nodes_of_child hc hd, heq⟩

theorem mem_registrations {d : PaddedTree × PaddedTree} (hd : d ∈ p.registrations) :
    (∃ f ∈ p.nodes, f.kind = .functionDefinition ∧ f.childBy? .name = some d.1) ∧
      d.2 ∈ p.nodes := by
  obtain ⟨v, hv, hd⟩ := List.mem_flatMap.mp hd
  obtain ⟨hnode, hparent⟩ := mem_visits hv
  unfold registrationsAt at hd
  split at hd
  · rename_i hkind
    split at hd
    · rename_i name above hname habove
      split at hd
      · obtain ⟨c, hc, rfl⟩ := List.mem_map.mp hd
        rcases hparent with hnone | ⟨above', hmem, heq⟩
        · rw [hnone] at habove
          cases habove
        · obtain rfl := Option.some.inj (habove.symm.trans heq)
          have hchild := mem_nodes_of_child hc (self_mem_nodes c)
          exact ⟨⟨v.2, hnode, hkind, hname⟩, mem_nodes_trans p hmem hchild⟩
      · cases hd
    · cases hd
  · cases hd

theorem mem_callNodes_of_call? {e call : PaddedTree} (he : e ∈ p.nodes) (h : e.call? = some call) :
    call ∈ p.callNodes := by
  obtain ⟨hmem, hkind⟩ := call?_mem h
  exact mem_callNodes.mpr ⟨mem_nodes_trans p he hmem, hkind⟩

/-- Hidden decorations are lost, the others are the same. -/
theorem decorationIn_full_or (h : p.KeepsTexts source source')
    (hlabels : ∀ c ∈ p.callNodes, c.full.callLabel source' = c.plain.callLabel source)
    {d : PaddedTree × PaddedTree} (hd : d ∈ p.decorations) :
    decorationIn full source' d = decorationIn plain source d ∨
      d.2.full.hidesDecorator = true ∧ decorationIn full source' d = none := by
  obtain ⟨n, hn, hd⟩ := List.mem_flatMap.mp hd
  obtain ⟨⟨f, hf, hkind, hname⟩, hchild⟩ := mem_decorationsAt hd
  have hmem := mem_nodes_trans p hn hchild
  cases hhidden : d.2.full.hidesDecorator with
  | true => exact Or.inr ⟨rfl, decorationIn_of_hidden hhidden⟩
  | false =>
    refine Or.inl (decorationIn_full ?_ ?_ hhidden)
    · exact h.handler f (mem_nodes_trans p hn hf) hkind d.1 hname
    · intro call hcall
      exact hlabels call (mem_callNodes_of_call? hmem hcall)

/-- Hidden routes are lost, the others are the same. -/
theorem routeIn_full_or (h : p.KeepsTexts source source')
    (harguments : ∀ c ∈ p.callNodes, c.joinedArguments = 0) (rule : RouteRule)
    {d : PaddedTree × PaddedTree} (hd : d ∈ p.registrations) :
    routeIn full source' rule d = routeIn plain source rule d ∨
      routeIn full source' rule d = none ∧
        (d.2.full.hidesDecorator = true ∨ ∃ call ∈ d.2.call?, call.hidesRoute = true) := by
  obtain ⟨⟨f, hf, hkind, hname⟩, hmem⟩ := mem_registrations hd
  have htext := h.handler f hf hkind d.1 hname
  cases hhidden : d.2.full.hidesDecorator with
  | true => exact Or.inr ⟨routeIn_of_hidden hhidden, Or.inl rfl⟩
  | false =>
    have hcallArguments : ∀ call ∈ d.2.call?, call.joinedArguments = 0 := fun call hcall =>
      harguments call (mem_callNodes_of_call? hmem hcall)
    by_cases hroute : ∃ call ∈ d.2.call?, call.hidesRoute = true
    · obtain ⟨call, hcall, hhides⟩ := hroute
      have hnone := routeIn_of_hidesRoute rule (h.of_mem hmem) hcall
        (hcallArguments call hcall) hhides
      exact Or.inr ⟨hnone, Or.inr ⟨call, hcall, hhides⟩⟩
    · refine Or.inl ?_
      apply routeIn_full rule (h.of_mem hmem) htext hcallArguments hhidden
      intro call hcall
      cases hhides : call.hidesRoute with
      | false => rfl
      | true => exact absurd ⟨call, hcall, hhides⟩ hroute

/-- A route that is there without the padding is one that its call registers. -/
theorem registers_of_routeIn {rule : RouteRule} {d : PaddedTree × PaddedTree}
    {route : String × String} (h : routeIn plain source rule d = some route) :
    ∃ call ∈ d.2.call?, call.Registers source := by
  obtain ⟨pattern, hpattern, -⟩ := Option.map_eq_some_iff.mp h
  obtain ⟨t, ht, hpattern⟩ := Option.bind_eq_some_iff.mp hpattern
  rw [decoratorCall?_plain] at ht
  obtain ⟨call, hcall, rfl⟩ := Option.map_eq_some_iff.mp ht
  exact ⟨call, hcall, rule, by rw [hpattern]; rfl⟩

/-- The extraction is the same with the padding only if the joined lines keep apart. -/
theorem joinsApart_of_same (file : String) (h : p.KeepsTexts source source')
    (hsame : SameExtraction source source' file p.plain p.full) : p.JoinsApart source := by
  have hkeeps : ∀ {c}, c ∈ p.callNodes → c.KeepsTexts source source' := fun hc =>
    h.of_mem (mem_callNodes.mp hc).1
  have hdetails := hsame.details
  rw [details_view isView_full, details_view isView_plain] at hdetails
  have hcallDetails := congrArg (List.filter EventDetails.isCall) hdetails
  rw [filter_isCall_details, filter_isCall_details, List.map_inj_left] at hcallDetails
  have hevents : ∀ c ∈ p.callNodes, c.full.callLabel source' = c.plain.callLabel source ∧
      c.full.positionalArguments.length = c.plain.positionalArguments.length := fun c hc =>
    EventDetails.call.inj (hcallDetails c hc)
  have hcalls := hsame.calls
  rw [calls_view isView_full, calls_view isView_plain,
    filterMap_eq_iff fun c hc => recordIn_full (hkeeps hc) (hevents c hc).2] at hcalls
  have hapart := fun c hc => (call_full_iff (hkeeps hc)).mp ⟨hcalls c hc, hevents c hc⟩
  have hdecorations := congrArg (List.filter (!·.isCall)) hdetails
  rw [filter_not_isCall_details, filter_not_isCall_details, filterMap_eq_iff fun d hd =>
    (decorationIn_full_or h (fun c hc => (hevents c hc).1) hd).imp_right And.right] at hdecorations
  have hroutes : ∀ rule, ∀ d ∈ p.registrations,
      routeIn full source' rule d = routeIn plain source rule d := by
    intro rule
    have hrule := hsame.routes rule
    rwa [routes_view isView_full, routes_view isView_plain, filterMap_eq_iff fun d hd =>
      (routeIn_full_or h (fun c hc => (hapart c hc).1) rule hd).imp_right And.left] at hrule
  refine ⟨fun c hc => (hapart c hc).1, fun c hc => (hapart c hc).2, ?_, ?_⟩
  · intro d hd hhidden
    have hnone := hdecorations d hd
    rw [decorationIn_of_hidden hhidden, decorationIn, decoratorCall?_plain] at hnone
    cases hcall : d.2.call? with
    | none => rfl
    | some call =>
      rw [hcall] at hnone
      cases hnone
  · rintro d hd call hcall ⟨rule, hregisters⟩
    have hmem := (mem_registrations hd).2
    have hkept := hroutes rule d hd
    have hsome : (routeIn full source' rule d).isSome = true := by
      rw [hkept, routeIn, decoratorCall?_plain, hcall]
      simpa using hregisters
    constructor
    · cases hhidden : d.2.full.hidesDecorator with
      | false => rfl
      | true =>
        rw [routeIn_of_hidden hhidden] at hsome
        cases hsome
    · cases hhides : call.hidesRoute with
      | false => rfl
      | true =>
        have hargument := (hapart call (mem_callNodes_of_call? hmem hcall)).1
        rw [routeIn_of_hidesRoute rule (h.of_mem hmem) hcall hargument hhides] at hsome
        cases hsome

/-- The extraction is the same with the padding if the joined lines keep apart. -/
theorem same_of_joinsApart (file : String) (h : p.KeepsTexts source source')
    (hapart : p.JoinsApart source) : SameExtraction source source' file p.plain p.full := by
  have hcall : ∀ c ∈ p.callNodes, recordIn full source' c = recordIn plain source c ∧
      c.full.callLabel source' = c.plain.callLabel source ∧
      c.full.positionalArguments.length = c.plain.positionalArguments.length := by
    intro c hc
    exact (call_full_iff (h.of_mem (mem_callNodes.mp hc).1)).mpr
      ⟨hapart.arguments c hc, hapart.callees c hc⟩
  constructor
  · exact dependencies_full h
  · intro rule
    rw [routes_view isView_full, routes_view isView_plain]
    apply List.filterMap_congr
    intro d hd
    rcases routeIn_full_or h hapart.arguments rule hd with heq | ⟨hnone, hhides⟩
    · exact heq
    · cases hroute : routeIn plain source rule d with
      | none => exact hnone
      | some route =>
        obtain ⟨call, hcall, hregisters⟩ := registers_of_routeIn hroute
        obtain ⟨hshows, hroute⟩ := hapart.routes d hd call hcall hregisters
        rcases hhides with hhidden | ⟨call', hcall', hhides⟩
        · rw [hshows] at hhidden
          cases hhidden
        · obtain rfl := Option.some.inj (hcall'.symm.trans hcall)
          rw [hroute] at hhides
          cases hhides
  · rw [calls_view isView_full, calls_view isView_plain]
    exact List.filterMap_congr fun c hc => (hcall c hc).1
  · rw [details_view isView_full, details_view isView_plain]
    apply List.flatMap_congr
    intro n hn
    rw [detailsAt, detailsAt]
    split
    · rename_i hkind
      obtain ⟨-, hlabel, hlength⟩ := hcall n (mem_callNodes.mpr ⟨hn, hkind⟩)
      rw [hlabel, hlength]
    · apply List.filterMap_congr
      intro d hd
      have hmem : d ∈ p.decorations := List.mem_flatMap.mpr ⟨n, hn, hd⟩
      rcases decorationIn_full_or h (fun c hc => (hcall c hc).2.1) hmem with heq | ⟨hhidden, hnone⟩
      · exact heq
      · rw [hnone, decorationIn, decoratorCall?_plain, hapart.decorators d hmem hhidden]
        rfl

/-- Without joined lines, what is hidden with the padding is hidden without it. -/
theorem isHidden_plain (hnone : ∀ n ∈ p.nodes, n.hasJoin = false) (h : p.full.isHidden = true) :
    p.plain.isHidden = true := by
  rcases inner_full p with hinner | ⟨-, n, hn, hjoin⟩
  · rw [Tree.isHidden, hinner, kind_full] at h
    rw [Tree.isHidden, inner_plain, kind_plain, h]
  · rw [hnone n hn] at hjoin
    cases hjoin

theorem call?_eq_none (hnone : ∀ n ∈ p.nodes, n.hasJoin = false)
    (h : p.full.hidesDecorator = true) : p.call? = none := by
  rcases decoratorCall?_full p with hcall | ⟨-, n, hn, hjoin⟩
  · rw [decoratorCall?_of_hidesDecorator h] at hcall
    exact Option.map_eq_none_iff.mp hcall.symm
  · rw [hnone n hn] at hjoin
    cases hjoin

theorem keepsName_of_comments (hnone : ∀ n ∈ p.nodes, n.hasJoin = false) :
    p.KeepsName source := by
  constructor
  · intro hhidden
    exact Tree.name_of_isHidden source (isHidden_plain hnone hhidden)
  · intro hkind o ho hhidden
    have hmem : o ∈ p.nodes := mem_nodes_trans p (inner_mem_nodes p)
      (mem_nodes_of_child (mem_children_of_childBy? ho) (self_mem_nodes o))
    have hobject : p.plain.unparenthesized.childBy? .object = some o.plain := by
      rw [inner_plain, childBy?_plain, ho]
      rfl
    refine Tree.simpleName?_of_hidden_object source ?_ hobject
      (isHidden_plain (fun n hn => hnone n (mem_nodes_trans p hmem hn)) hhidden)
    rw [inner_plain, kind_plain, hkind]

/-- Comments alone never count as anything. -/
theorem joinsApart_of_comments (source : String) (hnone : ∀ n ∈ p.nodes, n.hasJoin = false) :
    p.JoinsApart source := by
  have hbelow : ∀ {n}, n ∈ p.nodes → ∀ m ∈ n.nodes, m.hasJoin = false := fun hn m hm =>
    hnone m (mem_nodes_trans p hn hm)
  constructor
  · intro c hc
    rw [joinedArguments]
    cases ha : c.childBy? .arguments with
    | none => rfl
    | some a =>
      have hmem : a ∈ p.nodes := mem_nodes_trans p (mem_callNodes.mp hc).1
        (mem_nodes_of_child (mem_children_of_childBy? ha) (self_mem_nodes a))
      simp only []
      split
      · rfl
      · rw [List.countP_eq_zero]
        intro x hx
        simpa using List.any_eq_false.mp (hnone a hmem) x hx
  · intro c hc f hf
    have hmem : f ∈ p.nodes := mem_nodes_trans p (mem_callNodes.mp hc).1
      (mem_nodes_of_child (mem_children_of_childBy? hf) (self_mem_nodes f))
    exact keepsName_of_comments (hbelow hmem)
  · intro d hd hhidden
    obtain ⟨n, hn, hd⟩ := List.mem_flatMap.mp hd
    exact call?_eq_none (hbelow (mem_nodes_trans p hn (mem_decorationsAt hd).2)) hhidden
  · rintro d hd call hcall ⟨rule, hregisters⟩
    have hmem := (mem_registrations hd).2
    have hcallNode := mem_nodes_trans p hmem (call?_mem hcall).1
    constructor
    · cases hhidden : d.2.full.hidesDecorator with
      | false => rfl
      | true =>
        rw [call?_eq_none (hbelow hmem) hhidden] at hcall
        cases hcall
    · rw [hidesRoute, Bool.or_eq_false_iff]
      constructor
      · cases hf : call.childBy? .function with
        | none => rfl
        | some f =>
          rw [Option.any_some]
          cases hhidden : f.full.isHidden with
          | false => rfl
          | true =>
            have hchild := mem_nodes_of_child (mem_children_of_childBy? hf) (self_mem_nodes f)
            have hplain := isHidden_plain (hbelow (mem_nodes_trans p hcallNode hchild)) hhidden
            have hline : f.plain.unparenthesized.kind = .lineContinuation := eq_of_beq hplain
            rw [routePattern?_eq, childBy?_plain, hf, Option.map_some, Option.bind_some,
              if_neg (by rw [hline]; decide)] at hregisters
            cases hregisters
      · cases ha : call.arguments.head? with
        | none => rfl
        | some a =>
          have hmemArgument := mem_nodes_of_argument (List.mem_of_head? ha)
          rw [Option.any_some, hnone a (mem_nodes_trans p hcallNode hmemArgument), Bool.and_false]

/-- Comments and joined lines that are put in never change the imports, and comments change nothing
that is extracted. With joined lines the extraction stays the same exactly when they keep apart from
arguments, from callees with a name, from calls that decorate a function, and from the patterns of
routes. -/
theorem extraction_full_iff (source source' file : String) (p : PaddedTree)
    (h : p.KeepsTexts source source') :
    p.full.dependencies source' = p.plain.dependencies source ∧
      ((∀ n ∈ p.nodes, n.hasJoin = false) →
        SameExtraction source source' file p.plain p.full) ∧
      (SameExtraction source source' file p.plain p.full ↔ p.JoinsApart source) := by
  refine ⟨dependencies_full h, ?_, joinsApart_of_same file h, same_of_joinsApart file h⟩
  intro hnone
  exact same_of_joinsApart file h (joinsApart_of_comments source hnone)

end Trees

/-- The call `f(1)`, with a joined line before its argument. -/
def joinedCall : PaddedTree :=
  .node [] { kind := .call, start := 0, stop := 4 } ⟨0, 6, 0⟩
    [.node [] { kind := .identifier, field := some .function, start := 0, stop := 1 } ⟨0, 1, 0⟩
      [] [],
    .node [] { kind := .argumentList, field := some .arguments, start := 1, stop := 4 } ⟨1, 6, 0⟩
      [.node [] { kind := .token "(", start := 1, stop := 2 } ⟨1, 2, 0⟩ [] [],
      .node [.join ⟨2, 4, 0⟩] { kind := .integer, start := 2, stop := 3 } ⟨4, 5, 1⟩ [] [],
      .node [] { kind := .token ")", start := 3, stop := 4 } ⟨5, 6, 1⟩ [] []] []] []

/-- The joined line counts as a second argument. -/
theorem extraction_full_iff_joinedCall :
    joinedCall.KeepsTexts "f(1)" "f(\\\n1)" ∧
      joinedCall.plain.calls "f(1)" = [⟨"f", 1, 1⟩] ∧
      joinedCall.full.calls "f(\\\n1)" = [⟨"f", 2, 1⟩] ∧
      ¬ SameExtraction "f(1)" "f(\\\n1)" "app.py" joinedCall.plain joinedCall.full := by
  have hkeeps : joinedCall.KeepsTexts "f(1)" "f(\\\n1)" := by decide +kernel
  obtain ⟨-, -, hiff⟩ := extraction_full_iff "f(1)" "f(\\\n1)" "app.py" joinedCall hkeeps
  refine ⟨hkeeps, by decide +kernel, by decide +kernel, ?_⟩
  intro hsame
  have hzero : joinedCall.joinedArguments = 0 :=
    (hiff.mp hsame).arguments joinedCall (mem_callNodes.mpr ⟨self_mem_nodes _, rfl⟩)
  exact absurd hzero (by decide)

end PaddedTree

end Python

end Triage
