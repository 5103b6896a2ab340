import Triage.Proofs.PaddedCalls
import Triage.Proofs.Picking

/-!
# What decorators and calls are made of

Functions take parentheses off, find the call of a decorator and its first argument, and give a
string its value. Here each of them is told by a relation between a node and its children, in which
comments are passed over and nothing else is. A relation and its function agree on every tree.
-/

namespace Triage.Python

namespace Tree

/-- An expression with all its parentheses, and the same one without them. Parentheses with nothing
but comments in them stay. -/
inductive StripsTo : Tree → Tree → Prop
  | inside {t u e : Tree} (kind : t.kind = .parenthesizedExpression)
      (first : IsFirst (·.kind.showsExpression) t.children u) (rest : StripsTo u e) : StripsTo t e
  | bare {t : Tree} (kind : t.kind ≠ .parenthesizedExpression) : StripsTo t t
  | empty {t : Tree} (kind : t.kind = .parenthesizedExpression)
      (none : ∀ c ∈ t.children, c.kind.showsExpression = false) : StripsTo t t

theorem stripsTo_unparenthesized (t : Tree) : StripsTo t t.unparenthesized := by
  induction t using Tree.induction with
  | node l cs ih =>
    by_cases hkind : l.kind = .parenthesizedExpression
    · have hparen : kind (.node l cs) = .parenthesizedExpression := hkind
      rw [unparenthesized_eq hparen]
      cases hfirst : (children (.node l cs)).find? fun c => c.kind.showsExpression with
      | none =>
        refine .empty hparen fun c hc => ?_
        simpa using List.find?_eq_none.mp hfirst c hc
      | some u =>
        exact .inside hparen (isFirst_iff.mpr hfirst) (ih u (List.mem_of_find?_eq_some hfirst))
    · have hbare : kind (.node l cs) ≠ .parenthesizedExpression := hkind
      rw [unparenthesized_of_ne hbare]
      exact .bare hbare

theorem stripsTo_iff {t e : Tree} : StripsTo t e ↔ t.unparenthesized = e := by
  constructor
  · intro h
    induction h with
    | inside kind first _ ih =>
      rw [unparenthesized_eq kind, isFirst_iff.mp first]
      exact ih
    | bare kind => exact unparenthesized_of_ne kind
    | empty kind none =>
      rw [unparenthesized_eq kind, List.find?_eq_none.mpr fun c hc => by simp [none c hc]]
      rfl
  · rintro rfl
    exact stripsTo_unparenthesized t

/-- The call that a decorator decorates with: its expression, without parentheses. -/
structure Decorates (decorator call : Tree) : Prop where
  isDecorator : decorator.kind = .decorator
  expression : ∃ e, IsFirst (·.kind.showsExpression) decorator.children e ∧ StripsTo e call
  isCall : call.kind = .call

theorem decorates_iff {decorator call : Tree} :
    Decorates decorator call ↔ decorator.decoratorCall? = some call := by
  rw [decoratorCall?, decoratorExpression?_eq]
  constructor
  · rintro ⟨hdecorator, ⟨e, hfirst, hstrips⟩, hcall⟩
    rw [if_pos hdecorator, isFirst_iff.mp hfirst, Option.map_some, stripsTo_iff.mp hstrips]
    simp [Option.filter, hcall]
  · intro h
    split at h
    · rename_i hdecorator
      obtain ⟨hexpression, hcall⟩ := Option.filter_eq_some_iff.mp h
      obtain ⟨e, he, hstrips⟩ := Option.map_eq_some_iff.mp hexpression
      exact ⟨hdecorator, ⟨e, isFirst_iff.mpr he, stripsTo_iff.mpr hstrips⟩, by simpa using hcall⟩
    · cases h

/-- The first argument of a call that is no keyword argument, no dictionary splat and no comment. A
generator may stand for the whole list of arguments. -/
inductive FirstArgument : Tree → Tree → Prop
  | generator {call a : Tree} (arguments : call.childBy? .arguments = some a)
      (kind : a.kind = .generatorExpression) : FirstArgument call a
  | listed {call row a : Tree} (arguments : call.childBy? .arguments = some row)
      (kind : row.kind ≠ .generatorExpression)
      (first : IsFirst (·.kind.isArgument) row.children a) : FirstArgument call a

theorem firstArgument_iff {call a : Tree} :
    FirstArgument call a ↔ call.positionalArguments.head? = some a := by
  rw [positionalArguments]
  constructor
  · intro h
    cases h with
    | generator arguments kind => simp [arguments, kind]
    | listed arguments kind first =>
      simp only [arguments, kind, if_false, filter_isPositional]
      rw [List.head?_filter, isFirst_iff.mp first]
  · intro h
    split at h
    · cases h
    · rename_i row harguments
      split at h
      · rename_i hkind
        obtain rfl := Option.some.inj h
        exact .generator harguments hkind
      · rename_i hkind
        rw [filter_isPositional, List.head?_filter] at h
        exact .listed harguments hkind (isFirst_iff.mpr h)

/-- The value of a string that is not formatted and no bytes, or of a row of such strings, whose
values are joined. -/
inductive HasValue (source : String) : Tree → String → Prop
  | string {t : Tree} {value : String} (kind : t.kind = .string)
      (text : decodeLiteral (t.text source) = some value) : HasValue source t value
  | row {t : Tree} {values : List String} (kind : t.kind = .concatenatedString)
      (pieces : List.Forall₂
        (fun p value => p.kind = .string ∧ decodeLiteral (p.text source) = some value)
        (t.children.filter (·.kind.showsExpression)) values) :
      HasValue source t (String.join values)

theorem hasValue_iff {source value : String} {t : Tree} :
    HasValue source t value ↔ t.stringValue? source = some value := by
  have hpiece : ∀ (p : Tree) (v : String),
      p.kind = .string ∧ decodeLiteral (p.text source) = some v ↔
        (if p.kind = .string then decodeLiteral (p.text source) else none) = some v := by
    intro p v
    split <;> simp [*]
  rw [stringValue?]
  constructor
  · intro h
    cases h with
    | string kind text => simp [kind, text]
    | row kind pieces =>
      simp only [kind, filter_pieces]
      rw [(forall₂_iff_mapM hpiece).mp pieces]
      rfl
  · intro h
    split at h
    · rename_i hkind
      exact .string hkind h
    · rename_i hkind
      rw [filter_pieces] at h
      obtain ⟨values, hvalues, rfl⟩ := Option.map_eq_some_iff.mp h
      exact .row hkind ((forall₂_iff_mapM hpiece).mpr hvalues)
    · cases h

end Tree

end Triage.Python
