import Triage.Proofs.DecoratorShape
import Triage.Proofs.LiteralSpelling

/-!
# The routes that decorators offer

A decorator of a function that calls an attribute with a pattern offers a route under the name of
that attribute. Which routes are offered is told without a rule. A rule takes those whose name is
among its attributes, so neither its own name nor the order of its attributes matters, and the
routes of two rules are parts of one list.
-/

namespace Triage.Python

/-- A function, and a decorator of the definition it stands in. -/
structure Decoration where
  function : Tree
  decorator : Tree

/-- The text of a formatted string, of bytes or of a template: a letter before its quotes says
so. -/
def HasMarkedPrefix (text : String) : Prop :=
  ∃ letters rest : String, text = letters ++ rest ∧ (∀ c ∈ letters.toList, isQuote c = false) ∧
    ∃ c ∈ letters.toList, c ∈ ['f', 'F', 'b', 'B', 't', 'T']

namespace Tree

variable {source : String} {rule : RouteRule}

/-- The decorators of a node under a parent, when it is a function right under a decorated
definition. -/
def decorationsOf (v : Option Tree × Tree) : List Decoration :=
  match v.1 with
  | some parent =>
    if parent.kind = .decoratedDefinition ∧ v.2.kind = .functionDefinition then
      (parent.children.filter (·.kind == .decorator)).map fun d => ⟨v.2, d⟩
    else []
  | none => []

/-- The decorated functions in pre-order, each with its decorators in order. -/
def decorations (t : Tree) : List Decoration := (t.visits none).flatMap decorationsOf

/-- A decoration with the name under which it offers a route, and the route: the decorator calls an
attribute of any object, its first argument has a value, and the function has a name. -/
inductive Offers (source : String) : Decoration → String → RouteRecord → Prop
  | intro {function decorator call callee access member argument name : Tree} {route : String}
      (decorates : Decorates decorator call) (calls : call.childBy? .function = some callee)
      (strips : StripsTo callee access) (isAttribute : access.kind = .attribute)
      (named : access.childBy? .attribute = some member) (first : FirstArgument call argument)
      (pattern : HasValue source argument route) (handler : function.childBy? .name = some name) :
      Offers source ⟨function, decorator⟩ (member.text source)
        ⟨route, name.text source, function.line⟩

/-- The name of the attribute that a call calls. -/
def calledMember? (source : String) (call : Tree) : Option String :=
  (call.childBy? .function).bind fun callee =>
    if callee.unparenthesized.kind = .attribute then
      (callee.unparenthesized.childBy? .attribute).map (·.text source)
    else none

/-- What a decoration offers. -/
def offer? (source : String) (d : Decoration) : Option (String × RouteRecord) :=
  d.decorator.decoratorCall?.bind fun call =>
    (call.calledMember? source).bind fun member =>
      (call.positionalArguments.head?.bind (·.stringValue? source)).bind fun route =>
        (d.function.childBy? .name).map fun name =>
          (member, ⟨route, name.text source, d.function.line⟩)

theorem calledMember?_eq_some_iff {call : Tree} {text : String} :
    call.calledMember? source = some text ↔
      ∃ callee access member, call.childBy? .function = some callee ∧ StripsTo callee access ∧
        access.kind = .attribute ∧ access.childBy? .attribute = some member ∧
        member.text source = text := by
  rw [calledMember?, Option.bind_eq_some_iff]
  constructor
  · rintro ⟨callee, hcallee, h⟩
    split at h
    · rename_i hkind
      obtain ⟨member, hmember, rfl⟩ := Option.map_eq_some_iff.mp h
      exact ⟨callee, _, member, hcallee, stripsTo_unparenthesized callee, hkind, hmember, rfl⟩
    · cases h
  · rintro ⟨callee, access, member, hcallee, haccess, hkind, hmember, rfl⟩
    obtain rfl := stripsTo_iff.mp haccess
    refine ⟨callee, hcallee, ?_⟩
    rw [if_pos hkind, hmember]
    rfl

theorem offers_iff {d : Decoration} {name : String} {r : RouteRecord} :
    Offers source d name r ↔ offer? source d = some (name, r) := by
  constructor
  · intro h
    cases h with
    | @intro _ _ call callee access member _ _ _ decorates calls strips isAttribute named first
        pattern handler =>
      have hmember : call.calledMember? source = some (member.text source) :=
        calledMember?_eq_some_iff.mpr
          ⟨callee, access, member, calls, strips, isAttribute, named, rfl⟩
      simp only [offer?, decorates_iff.mp decorates, hmember, firstArgument_iff.mp first,
        hasValue_iff.mp pattern, handler, Option.bind_some, Option.map_some]
  · intro h
    obtain ⟨function, decorator⟩ := d
    obtain ⟨call, hcall, h⟩ := Option.bind_eq_some_iff.mp h
    obtain ⟨text, htext, h⟩ := Option.bind_eq_some_iff.mp h
    obtain ⟨route, hroute, h⟩ := Option.bind_eq_some_iff.mp h
    obtain ⟨handler, hhandler, heq⟩ := Option.map_eq_some_iff.mp h
    obtain ⟨callee, access, member, hcallee, haccess, hkind, hmember, rfl⟩ :=
      calledMember?_eq_some_iff.mp htext
    obtain ⟨argument, hargument, hvalue⟩ := Option.bind_eq_some_iff.mp hroute
    obtain ⟨rfl, rfl⟩ := Prod.mk.inj heq
    exact .intro (decorates_iff.mpr hcall) hcallee haccess hkind hmember
      (firstArgument_iff.mpr hargument) (hasValue_iff.mpr hvalue) hhandler

/-- A rule takes an offer whose name is among its attributes. -/
def taken? (rule : RouteRule) (offer : String × RouteRecord) : Option RouteRecord :=
  if rule.accepts offer.1 then some offer.2 else none

theorem routePattern?_eq_bind (source : String) (rule : RouteRule) (call : Tree) :
    call.routePattern? source rule =
      (call.calledMember? source).bind fun member =>
        if rule.accepts member then call.positionalArguments.head?.bind (·.stringValue? source)
        else none := by
  rw [PaddedTree.routePattern?_eq, calledMember?, Option.bind_assoc]
  congr 1
  funext callee
  split <;> rfl

/-- The route that a decorator registers is its offer, when the rule takes it. -/
theorem offer?_bind_taken? (source : String) (rule : RouteRule) (d : Decoration) :
    (offer? source d).bind (taken? rule) =
      d.decorator.decoratorCall?.bind fun call =>
        (call.routePattern? source rule).bind fun route =>
          (d.function.childBy? .name).map fun name =>
            ⟨route, name.text source, d.function.line⟩ := by
  rw [offer?, Option.bind_assoc]
  congr 1
  funext call
  rw [routePattern?_eq_bind]
  cases call.calledMember? source with
  | none => rfl
  | some member =>
    simp only [Option.bind_some]
    cases call.positionalArguments.head?.bind (·.stringValue? source) with
    | none => split <;> rfl
    | some route =>
      cases d.function.childBy? .name with
      | none => split <;> rfl
      | some name =>
        simp only [Option.bind_some, Option.map_some, taken?]
        split <;> rfl

/-- The routes of a node are the offers of its decorators that the rule takes. -/
theorem routesOf_eq_filterMap (source : String) (rule : RouteRule) (v : Option Tree × Tree) :
    routesOf source rule v =
      (decorationsOf v).filterMap fun d => (offer? source d).bind (taken? rule) := by
  obtain ⟨parent?, n⟩ := v
  by_cases h : n.kind = .functionDefinition ∧ ∃ p ∈ parent?, p.kind = .decoratedDefinition
  · obtain ⟨hfunction, ⟨l, cs⟩, rfl, hdecorated⟩ := h
    have hcalls : decoratorCalls (Cursor.parent? ⟨n, [⟨.node l cs, []⟩]⟩) =
        cs.filterMap decoratorCall? := decoratorCalls_eq_filterMap cs hdecorated
    have hdecorations : decorationsOf (some (.node l cs), n) =
        (cs.filter (·.kind == .decorator)).map fun d => ⟨n, d⟩ := if_pos ⟨hdecorated, hfunction⟩
    have hown : ∀ c : Tree, c.kind ≠ .decorator → c.decoratorCall? = none := fun c hc => if_neg hc
    rw [routesOf, if_pos hfunction, routesAt, hdecorations, List.filterMap_map,
      List.filterMap_filter]
    simp only [Option.toList_some, List.map_cons, List.map_nil, hcalls]
    cases hname : n.childBy? .name with
    | none => simp [offer?_bind_taken?, hname]
    | some name =>
      simp only [List.filterMap_filterMap]
      apply List.filterMap_congr
      intro c _
      by_cases hc : c.kind = .decorator
      · simp [hc, offer?_bind_taken?, hname, Option.map_eq_bind]
      · simp [hc, hown c hc]
  · have hnone : decorationsOf (parent?, n) = [] := by
      cases parent? with
      | none => rfl
      | some p => exact if_neg fun hboth => h ⟨hboth.2, p, rfl, hboth.1⟩
    rw [hnone, routesOf_eq_nil]
    · rfl
    · by_cases hfunction : n.kind = .functionDefinition
      · exact Or.inr fun p hp hdecorated => h ⟨hfunction, p, hp, hdecorated⟩
      · exact Or.inl hfunction

/-- The routes of a file under a rule are the offers that the rule takes. -/
theorem routes_eq_filterMap (source : String) (rule : RouteRule) (t : Tree) :
    t.routes source rule =
      t.decorations.filterMap fun d => (offer? source d).bind (taken? rule) := by
  rw [routes_eq_visits, decorations, List.filterMap_flatMap]
  exact List.flatMap_congr fun v _ => routesOf_eq_filterMap source rule v

theorem offers_taken_iff {d : Decoration} {r : RouteRecord} :
    (∃ name ∈ rule.attributes, Offers source d name r) ↔
      (offer? source d).bind (taken? rule) = some r := by
  rw [Option.bind_eq_some_iff]
  constructor
  · rintro ⟨name, hname, h⟩
    have haccepts : rule.accepts name = true := List.contains_iff_mem.mpr hname
    exact ⟨(name, r), offers_iff.mp h, if_pos haccepts⟩
  · rintro ⟨⟨name, r'⟩, hoffer, htaken⟩
    obtain ⟨haccepts, hr⟩ : rule.accepts name = true ∧ r' = r := by simpa [taken?] using htaken
    exact ⟨name, List.contains_iff_mem.mp haccepts, hr ▸ offers_iff.mpr hoffer⟩

theorem routes_eq_filter (source : String) (rule : RouteRule) (t : Tree) :
    t.routes source rule =
      ((t.decorations.filterMap (offer? source)).filter fun o => rule.accepts o.1).map (·.2) := by
  rw [routes_eq_filterMap, ← List.filterMap_filterMap, ← List.filterMap_eq_map,
    List.filterMap_filter]
  rfl

/-- A string with a marked prefix, or a row with such a string among its pieces. -/
def IsMarked (source : String) (t : Tree) : Prop :=
  t.kind = .string ∧ HasMarkedPrefix (t.text source) ∨
    t.kind = .concatenatedString ∧
      ∃ p ∈ t.children, p.kind = .string ∧ HasMarkedPrefix (p.text source)

theorem decodeLiteral_of_marked {text : String} (h : HasMarkedPrefix text) :
    decodeLiteral text = none := by
  obtain ⟨letters, rest, rfl, hletters, hmark⟩ := h
  exact decodeLiteral_eq_none hletters hmark

theorem not_hasValue_of_marked {t : Tree} {value : String} (h : t.IsMarked source) :
    ¬ HasValue source t value := by
  have hnone : t.stringValue? source = none := by
    rw [stringValue?]
    rcases h with ⟨hkind, hmarked⟩ | ⟨hkind, p, hp, hstring, hmarked⟩
    · simp only [hkind, decodeLiteral_of_marked hmarked]
    · have hpiece : p ∈ t.children.filter (·.kind.showsExpression) :=
        List.mem_filter.mpr ⟨hp, by rw [hstring]; rfl⟩
      simp only [hkind, filter_pieces]
      rw [PaddedTree.mapM_eq_none hpiece (by rw [if_pos hstring, decodeLiteral_of_marked hmarked])]
      rfl
  rw [hasValue_iff, hnone]
  exact (Option.some_ne_none value).symm

/-- One marked piece in the first argument takes the whole route away. -/
theorem not_offers_of_marked {d : Decoration} {name : String} {r : RouteRecord}
    {call argument : Tree} (hcall : Decorates d.decorator call)
    (hfirst : FirstArgument call argument) (hmarked : argument.IsMarked source) :
    ¬ Offers source d name r := by
  intro h
  cases h with
  | intro decorates _ _ _ _ first pattern _ =>
    obtain rfl := Option.some.inj ((decorates_iff.mp hcall).symm.trans (decorates_iff.mp decorates))
    obtain rfl := Option.some.inj
      ((firstArgument_iff.mp hfirst).symm.trans (firstArgument_iff.mp first))
    exact not_hasValue_of_marked hmarked pattern

/-- The routes of a file are what its decorated functions register, in pre-order, each function
with its decorators in order: one route for each decorator that offers one under an attribute of the
rule, and no other. A formatted or byte piece in the pattern takes the route away. A rule matters by
the set of its attributes alone. What it takes is a selection from one list of offers, by their
names, so more attributes mean more routes, and two sets together mean the routes of both. -/
theorem routes_are_offers (source : String) (t : Tree) :
    (∀ rule : RouteRule, Picks (fun d r => ∃ name ∈ rule.attributes, Offers source d name r)
      t.decorations (t.routes source rule)) ∧
    (∀ (d : Decoration) (call argument : Tree), Decorates d.decorator call →
      FirstArgument call argument → argument.IsMarked source →
        ∀ name r, ¬ Offers source d name r) ∧
    (∀ rule rule' : RouteRule, (∀ name, name ∈ rule'.attributes ↔ name ∈ rule.attributes) →
      t.routes source rule' = t.routes source rule) ∧
    (∃ offers : List (String × RouteRecord), ∀ rule : RouteRule,
      t.routes source rule = (offers.filter fun o => rule.accepts o.1).map (·.2)) ∧
    (∀ rule rule' : RouteRule, (∀ name ∈ rule.attributes, name ∈ rule'.attributes) →
      (t.routes source rule).Sublist (t.routes source rule')) ∧
    ∀ rule rule' both : RouteRule, (∀ name, name ∈ both.attributes ↔
        name ∈ rule.attributes ∨ name ∈ rule'.attributes) →
      ∀ r, r ∈ t.routes source both ↔ r ∈ t.routes source rule ∨ r ∈ t.routes source rule' := by
  have haccepts : ∀ (rule : RouteRule) (name : String),
      rule.accepts name = true ↔ name ∈ rule.attributes := fun _ _ => List.contains_iff_mem
  refine ⟨?_, ?_, ?_, ⟨_, fun rule => routes_eq_filter source rule t⟩, ?_, ?_⟩
  · intro rule
    have hpicks : ∀ d r, (∃ name ∈ rule.attributes, Offers source d name r) ↔
        (offer? source d).bind (taken? rule) = some r := fun d r => offers_taken_iff
    exact (picks_iff hpicks).mpr (routes_eq_filterMap source rule t).symm
  · intro d call argument hcall hfirst hmarked name r
    exact not_offers_of_marked hcall hfirst hmarked
  · intro rule rule' hsame
    have hequal : ∀ name, rule'.accepts name = rule.accepts name := fun name => by
      rw [Bool.eq_iff_iff, haccepts, haccepts, hsame]
    rw [routes_eq_filter, routes_eq_filter]
    simp only [hequal]
  · intro rule rule' hsubset
    rw [routes_eq_filter, routes_eq_filter]
    refine (List.monotone_filter_right _ fun o ho => ?_).map _
    exact (haccepts _ _).mpr (hsubset _ ((haccepts _ _).mp ho))
  · intro rule rule' both hboth r
    simp only [routes_eq_filter, List.mem_map, List.mem_filter, haccepts, hboth]
    constructor
    · rintro ⟨o, ⟨ho, hname | hname⟩, rfl⟩
      · exact Or.inl ⟨o, ⟨ho, hname⟩, rfl⟩
      · exact Or.inr ⟨o, ⟨ho, hname⟩, rfl⟩
    · rintro (⟨o, ⟨ho, hname⟩, rfl⟩ | ⟨o, ⟨ho, hname⟩, rfl⟩)
      · exact ⟨o, ⟨ho, Or.inl hname⟩, rfl⟩
      · exact ⟨o, ⟨ho, Or.inr hname⟩, rfl⟩

/-- Two patterns, each a row of two strings. The last string is formatted. -/
def rowsText : String := "@app.get('/a' 'b')\n@app.post('/c' f'd')\ndef f(): 0\n"

def formattedPiece : Tree := .node { kind := .string, start := 34, stop := 38, row := 1 } []

def formattedRow : Tree :=
  .node { kind := .concatenatedString, start := 29, stop := 38, row := 1 }
    [.node { kind := .string, start := 29, stop := 33, row := 1 } [], formattedPiece]

def formattedCall : Tree :=
  .node { kind := .call, start := 20, stop := 39, row := 1 }
    [.node { kind := .attribute, field := some .function, start := 20, stop := 28, row := 1 }
      [.node { kind := .identifier, field := some .object, start := 20, stop := 23, row := 1 } [],
      .node { kind := .identifier, field := some .attribute, start := 24, stop := 28, row := 1 }
        []],
    .node { kind := .argumentList, field := some .arguments, start := 28, stop := 39, row := 1 }
      [formattedRow]]

def formattedDecorator : Tree :=
  .node { kind := .decorator, start := 19, stop := 39, row := 1 } [formattedCall]

def rowsFunction : Tree :=
  .node
    { kind := .functionDefinition, field := some .definition, start := 40, stop := 50, row := 2 }
    [.node { kind := .identifier, field := some .name, start := 44, stop := 45, row := 2 } []]

def rowsTree : Tree :=
  .node { kind := .decoratedDefinition, start := 0, stop := 50 }
    [.node { kind := .decorator, start := 0, stop := 18 }
      [.node { kind := .call, start := 1, stop := 18 }
        [.node { kind := .attribute, field := some .function, start := 1, stop := 8 }
          [.node { kind := .identifier, field := some .object, start := 1, stop := 4 } [],
          .node { kind := .identifier, field := some .attribute, start := 5, stop := 8 } []],
        .node { kind := .argumentList, field := some .arguments, start := 8, stop := 18 }
          [.node { kind := .concatenatedString, start := 9, stop := 17 }
            [.node { kind := .string, start := 9, stop := 13 } [],
            .node { kind := .string, start := 14, stop := 17 } []]]]],
    formattedDecorator, rowsFunction]

/-- The first row is a route in whatever way a rule lists its name. The second row is none under any
name, since one of its pieces is formatted. -/
theorem routes_are_offers_rowsTree :
    rowsTree.routes rowsText ⟨"one", ["get", "post"]⟩ = [⟨"/ab", "f", 3⟩] ∧
      rowsTree.routes rowsText ⟨"two", ["post", "get", "post"]⟩ = [⟨"/ab", "f", 3⟩] ∧
      (rowsTree.routes rowsText ⟨"three", ["post"]⟩).Sublist [⟨"/ab", "f", 3⟩] ∧
      ∀ name r, ¬ Offers rowsText ⟨rowsFunction, formattedDecorator⟩ name r := by
  obtain ⟨-, hmarked, hsame, -, hsubset, -⟩ := routes_are_offers rowsText rowsTree
  have hone : rowsTree.routes rowsText ⟨"one", ["get", "post"]⟩ = [⟨"/ab", "f", 3⟩] := by
    decide +kernel
  have htwo := hsame ⟨"one", ["get", "post"]⟩ ⟨"two", ["post", "get", "post"]⟩ (by simp [or_comm])
  have hthree := hsubset ⟨"three", ["post"]⟩ ⟨"one", ["get", "post"]⟩ (by simp)
  have hdecorates : Decorates formattedDecorator formattedCall :=
    ⟨rfl, ⟨formattedCall, ⟨[], [], rfl, rfl, nofun⟩, .bare (by decide)⟩, rfl⟩
  have hfirst : FirstArgument formattedCall formattedRow :=
    .listed rfl (by decide) ⟨[], [], rfl, rfl, nofun⟩
  have hpiece : HasMarkedPrefix (formattedPiece.text rowsText) :=
    ⟨"f", "'d'", by decide +kernel, by simp [isQuote], 'f', by simp, by simp⟩
  have hrow : formattedRow.IsMarked rowsText :=
    Or.inr ⟨rfl, formattedPiece, by simp [formattedRow, children], rfl, hpiece⟩
  exact ⟨hone, htwo.trans hone, hone ▸ hthree,
    hmarked ⟨rowsFunction, formattedDecorator⟩ formattedCall formattedRow hdecorates hfirst hrow⟩

end Tree

end Triage.Python
