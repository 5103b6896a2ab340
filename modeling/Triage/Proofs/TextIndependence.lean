import Mathlib
import Triage.Proofs.TextCuts

/-!
# What does not depend on the text

A tree is read against a text that need not be its own. The text gives the names in what is taken
from the tree. Which events, calls and imports there are, on which lines and with how many
arguments, is told by the tree alone. Two runs over one tree are set side by side, from the single
names up to the whole lists.
-/

namespace Triage

/-- Details of one sort, of calls with the same number of arguments. -/
inductive EventDetails.Alike : EventDetails → EventDetails → Prop
  | call (function function' : String) (args : Nat) :
      Alike (.call function args) (.call function' args)
  | decorator (decorator decorator' function function' : String) :
      Alike (.decorator decorator function) (.decorator decorator' function')
  | attribute (label label' : String) : Alike (.attribute label) (.attribute label')

/-- Events that differ in names alone. -/
structure Event.Alike (e e' : Event) : Prop where
  file : e.file = e'.file
  line : e.line = e'.line
  kind : e.kind = e'.kind
  details : e.details.Alike e'.details

/-- Calls that differ in names alone. -/
structure CallRecord.Alike (r r' : CallRecord) : Prop where
  args : r.args = r'.args
  line : r.line = r'.line

namespace Python

/-- Two results of which both or neither are there. -/
def BothOrNeither (x y : Option String) : Prop := Option.Rel (fun _ _ => True) x y

theorem forall₂_map {α β : Type} {R : β → β → Prop} {f g : α → β} (h : ∀ a, R (f a) (g a))
    (l : List α) : List.Forall₂ R (l.map f) (l.map g) := by
  apply List.rel_map (R := Eq)
  · rintro a _ rfl
    exact h a
  · exact List.forall₂_refl l

theorem forall₂_filterMap {α β : Type} {R : β → β → Prop} {f g : α → Option β}
    (h : ∀ a, Option.Rel R (f a) (g a)) (l : List α) :
    List.Forall₂ R (l.filterMap f) (l.filterMap g) := by
  apply List.rel_filterMap (R := Eq)
  · rintro a _ rfl
    exact h a
  · exact List.forall₂_refl l

theorem forall₂_flatMap {α β : Type} {R : β → β → Prop} {f g : α → List β}
    (h : ∀ a, List.Forall₂ R (f a) (g a)) (l : List α) :
    List.Forall₂ R (l.flatMap f) (l.flatMap g) := by
  rw [List.flatMap_def, List.flatMap_def]
  exact List.rel_flatten (forall₂_map h l)

namespace Tree

/-! ### Names -/

theorem simpleName?_bothOrNeither (source source' : String) (t : Tree) :
    BothOrNeither (t.simpleName? source) (t.simpleName? source') := by
  unfold simpleName?
  dsimp only
  split
  · exact .some trivial
  · split
    · split
      · exact .some trivial
      · exact .none
    · exact .none
  · exact .none

theorem importedModule?_bothOrNeither (source source' : String) (t : Tree) :
    BothOrNeither (t.importedModule? source) (t.importedModule? source') := by
  unfold importedModule?
  split
  · exact .some trivial
  · cases t.childBy? .name with
    | none => exact .none
    | some name => exact .some trivial
  · exact .none

/-! ### Events -/

theorem attributeAccess?_alike (source source' : String) (t : Tree) :
    Option.Rel (fun a a' => a.line = a'.line) (t.attributeAccess? source)
      (t.attributeAccess? source') := by
  unfold attributeAccess?
  cases t.childBy? .object with
  | none => exact .none
  | some object =>
    cases t.childBy? .attribute with
    | none => exact .none
    | some member => exact .some rfl

theorem decoratorEvents_alike (source source' file : String) (t : Tree) :
    List.Forall₂ Event.Alike (t.decoratorEvents source file) (t.decoratorEvents source' file) := by
  unfold decoratorEvents
  split
  · exact .nil
  · split
    · exact .nil
    · split
      · exact .nil
      · apply forall₂_map
        intro call
        exact ⟨rfl, rfl, rfl, .decorator _ _ _ _⟩

/-- A node has the same events, but for names. -/
theorem eventsAt_alike (source source' file : String) (t : Tree) :
    List.Forall₂ Event.Alike (t.eventsAt source file) (t.eventsAt source' file) := by
  unfold eventsAt
  split
  · exact .cons ⟨rfl, rfl, rfl, .call _ _ _⟩ .nil
  · exact decoratorEvents_alike source source' file t
  · have haccess := attributeAccess?_alike source source' t
    revert haccess
    cases t.attributeAccess? source <;> cases t.attributeAccess? source' <;> intro haccess
    · exact .nil
    · cases haccess
    · cases haccess
    · cases haccess with
      | some hline => exact .cons ⟨rfl, congrArg some hline, rfl, .attribute _ _⟩ .nil
  · exact .nil

theorem events_alike (source source' file : String) (t : Tree) :
    List.Forall₂ Event.Alike (t.events source file) (t.events source' file) :=
  forall₂_flatMap (eventsAt_alike source source' file) t.nodes

/-! ### Records -/

theorem callRecord?_alike (source source' : String) (t : Tree) :
    Option.Rel CallRecord.Alike (t.callRecord? source) (t.callRecord? source') := by
  unfold callRecord?
  cases t.childBy? .function with
  | none => exact .none
  | some callee =>
    have hname := simpleName?_bothOrNeither source source' callee
    dsimp only [Option.bind_eq_bind, Option.bind_some]
    revert hname
    cases callee.simpleName? source <;> cases callee.simpleName? source' <;> intro hname
    · exact .none
    · cases hname
    · cases hname
    · exact .some ⟨rfl, rfl⟩

theorem calls_alike (source source' : String) (t : Tree) :
    List.Forall₂ CallRecord.Alike (t.calls source) (t.calls source') :=
  forall₂_filterMap (callRecord?_alike source source') _

theorem importedModules_alike (source source' : String) (t : Tree) :
    List.Forall₂ (fun _ _ => True) (t.importedModules source) (t.importedModules source') := by
  unfold importedModules
  split
  · exact forall₂_filterMap (importedModule?_bothOrNeither source source') _
  · exact .cons trivial .nil
  · exact .cons trivial .nil
  · exact .nil

theorem length_dependencies (source source' : String) (t : Tree) :
    (t.dependencies source).length = (t.dependencies source').length :=
  (forall₂_flatMap (importedModules_alike source source') t.nodes).length_eq

/-- Extraction ends well with every text. A node has the text that it covers, and an empty one when
its range is out of bounds or cuts a character. With two texts one tree gives as many events, calls
and imports, which differ in names alone. -/
theorem extraction_structure_fixed :
    (∀ (source file : String) (rule : RouteRule) (t : Tree),
      t.extractOrAbort source file rule = .ok (t.record source file rule, t.events source file)) ∧
    (∀ (source : String) (t : Tree), t.text source = (t.piece? source).getD "") ∧
    (∀ (source piece : String) (t : Tree), t.piece? source = some piece ↔
      ∃ before after : String, source = before ++ (piece ++ after) ∧
        before.utf8ByteSize = t.label.start ∧
        t.label.start + piece.utf8ByteSize = t.label.stop) ∧
    ∀ (source source' file : String) (t : Tree),
      List.Forall₂ Event.Alike (t.events source file) (t.events source' file) ∧
      List.Forall₂ CallRecord.Alike (t.calls source) (t.calls source') ∧
      (t.dependencies source).length = (t.dependencies source').length :=
  ⟨fun source file rule t => extractOrAbort_eq source file rule t,
    fun source t => text_eq source t,
    fun _ _ _ => piece?_eq_some,
    fun source source' file t => ⟨events_alike source source' file t,
      calls_alike source source' t, length_dependencies source source' t⟩⟩

/-- The tree of a call of a name without arguments. -/
def nameCallTree : Tree :=
  .node { kind := .call, stop := 3 }
    [.node { kind := .identifier, field := some .function, stop := 1 } [],
      .node { kind := .argumentList, field := some .arguments, start := 1, stop := 3 } []]

/-- Its own text, and one in which the name would end inside a character. -/
theorem extraction_structure_fixed_mismatched :
    nameCallTree.events "f()" "a.py" = [Event.functionCall "a.py" 1 "f" 0] ∧
    nameCallTree.events "é" "a.py" = [Event.functionCall "a.py" 1 "" 0] ∧
    List.Forall₂ Event.Alike (nameCallTree.events "f()" "a.py") (nameCallTree.events "é" "a.py") ∧
    nameCallTree.extractOrAbort "é" "a.py" .flask =
      .ok (nameCallTree.record "é" "a.py" .flask, nameCallTree.events "é" "a.py") :=
  ⟨by decide +kernel, by decide +kernel,
    (extraction_structure_fixed.2.2.2 "f()" "é" "a.py" nameCallTree).1,
    extraction_structure_fixed.1 "é" "a.py" .flask nameCallTree⟩

end Tree

end Python

end Triage
