import Mathlib.Data.List.Forall2
import Triage.Proofs.Picking
import Triage.Proofs.Traversal

/-!
# What import statements name

The modules of an import statement are those of its names, whatever they are called afterwards. A
statement that imports from a module has one module, without the dots in front of it. The imports of
a file are those of its statements, one after the other.
-/

namespace Triage.Python

/-- The statements that import modules. -/
def Kind.isImport : Kind → Bool
  | importStatement | importFromStatement | futureImportStatement => true
  | _ => false

namespace Tree

variable {source : String} {t : Tree}

/-- The identifiers among the children, joined by dots. -/
def joined (source : String) (t : Tree) : String :=
  ".".intercalate ((t.children.filter (·.kind == .identifier)).map (·.text source))

/-- The module that a name in an import statement stands for. -/
inductive NamesModule (source : String) : Tree → String → Prop
  | plain {c : Tree} (kind : c.kind = .dottedName) : NamesModule source c (c.joined source)
  | aliased {c d : Tree} (kind : c.kind = .aliasedImport)
      (name : IsFirst (·.field == some .name) c.children d) :
      NamesModule source c (d.joined source)

/-- The module that a statement imports from. Behind dots it is the name that follows them, and dots
alone leave it empty. -/
inductive ImportsFrom (source : String) (t : Tree) : String → Prop
  | absolute {m : Tree} (module : IsFirst (·.field == some .moduleName) t.children m)
      (kind : m.kind = .dottedName) : ImportsFrom source t (m.joined source)
  | relative {m d : Tree} (module : IsFirst (·.field == some .moduleName) t.children m)
      (kind : m.kind ≠ .dottedName) (name : IsFirst (·.kind == .dottedName) m.children d) :
      ImportsFrom source t (d.joined source)
  | dots {m : Tree} (module : IsFirst (·.field == some .moduleName) t.children m)
      (kind : m.kind ≠ .dottedName) (none : ∀ c ∈ m.children, c.kind ≠ .dottedName) :
      ImportsFrom source t ""
  | missing (none : ∀ c ∈ t.children, c.field ≠ some .moduleName) : ImportsFrom source t ""

/-- The modules that an import statement imports. -/
inductive Imports (source : String) (t : Tree) : List String → Prop
  | names {modules : List String} (kind : t.kind = .importStatement)
      (names : Picks (NamesModule source) (t.children.filter (·.field == some .name)) modules) :
      Imports source t modules
  | module {m : String} (kind : t.kind = .importFromStatement) (module : ImportsFrom source t m) :
      Imports source t [m]
  | future (kind : t.kind = .futureImportStatement) : Imports source t ["__future__"]

theorem dottedText_eq_joined (source : String) (t : Tree) :
    t.dottedText source = t.joined source := by
  rw [dottedText, joined, namedChildren, List.filter_filter]
  congr 2
  apply List.filter_congr
  intro c _
  cases hkind : c.kind == .identifier with
  | false => rfl
  | true => rw [eq_of_beq hkind]; rfl

theorem find?_dottedName (t : Tree) :
    t.namedChildren.find? (·.kind == .dottedName) = t.children.find? (·.kind == .dottedName) := by
  rw [namedChildren, List.find?_filter]
  congr 1
  funext c
  cases hkind : c.kind == .dottedName with
  | false => simp
  | true => rw [eq_of_beq hkind]; rfl

theorem isFirst_field_iff {f : Field} {c : Tree} :
    IsFirst (·.field == some f) t.children c ↔ t.childBy? f = some c := isFirst_iff

theorem namesModule_iff {c : Tree} {module : String} :
    NamesModule source c module ↔ c.importedModule? source = some module := by
  rw [importedModule?]
  constructor
  · intro h
    cases h with
    | plain kind => simp only [kind, dottedText_eq_joined]
    | @aliased d kind name =>
      simp only [kind, isFirst_field_iff.mp name, Option.map_some, dottedText_eq_joined]
  · intro h
    split at h
    · rename_i hkind
      rw [dottedText_eq_joined] at h
      obtain rfl := Option.some.inj h
      exact .plain hkind
    · rename_i hkind
      obtain ⟨d, hd, rfl⟩ := Option.map_eq_some_iff.mp h
      rw [dottedText_eq_joined]
      exact .aliased hkind (isFirst_field_iff.mpr hd)
    · cases h

theorem importsFrom_iff {module : String} :
    ImportsFrom source t module ↔ t.fromModule source = module := by
  rw [fromModule]
  constructor
  · intro h
    cases h with
    | @absolute m first kind =>
      simp only [isFirst_field_iff.mp first, kind, if_true, dottedText_eq_joined]
    | @relative m d first kind name =>
      simp only [isFirst_field_iff.mp first, kind, if_false, find?_dottedName,
        isFirst_iff.mp name, Option.map_some, Option.getD_some, dottedText_eq_joined]
    | @dots m first kind none =>
      have hnone : m.children.find? (·.kind == .dottedName) = Option.none :=
        List.find?_eq_none.mpr fun c hc => by simpa using none c hc
      simp only [isFirst_field_iff.mp first, kind, if_false, find?_dottedName, hnone]
      rfl
    | missing none =>
      have hnone : t.childBy? .moduleName = Option.none :=
        List.find?_eq_none.mpr fun c hc => by simpa using none c hc
      simp only [hnone]
  · rintro rfl
    cases hmodule : t.childBy? .moduleName with
    | none =>
      exact .missing fun c hc => by simpa using List.find?_eq_none.mp hmodule c hc
    | some m =>
      have hfirst := isFirst_field_iff.mpr hmodule
      simp only [find?_dottedName, dottedText_eq_joined]
      split
      · rename_i hkind
        exact .absolute hfirst hkind
      · rename_i hkind
        cases hname : m.children.find? (·.kind == .dottedName) with
        | none =>
          exact .dots hfirst hkind fun c hc => by simpa using List.find?_eq_none.mp hname c hc
        | some d => exact .relative hfirst hkind (isFirst_iff.mpr hname)

/-- The modules of an import statement are those that it imports. -/
theorem imports_importedModules (h : t.kind.isImport = true) :
    Imports source t (t.importedModules source) := by
  rw [importedModules]
  split
  · rename_i hkind
    have hpicks : ∀ c m, NamesModule source c m ↔ c.importedModule? source = some m :=
      fun _ _ => namesModule_iff
    exact .names hkind ((picks_iff hpicks).mpr rfl)
  · rename_i hkind
    exact .module hkind (importsFrom_iff.mpr rfl)
  · rename_i hkind
    exact .future hkind
  · rename_i hnames hfrom hfuture
    rw [Kind.isImport.eq_4 _ hnames hfrom hfuture] at h
    cases h

theorem importedModules_eq_nil (h : t.kind.isImport = false) : t.importedModules source = [] := by
  rw [importedModules]
  split
  · rename_i hkind
    rw [hkind] at h
    cases h
  · rename_i hkind
    rw [hkind] at h
    cases h
  · rename_i hkind
    rw [hkind] at h
    cases h
  · rfl

/-- The imports of a file are those of its import statements, in the order of the walk. -/
theorem dependencies_eq_flatten (source : String) (t : Tree) :
    t.dependencies source =
      ((t.nodes.filter (·.kind.isImport)).map (·.importedModules source)).flatten := by
  rw [dependencies]
  induction t.nodes with
  | nil => rfl
  | cons n ns ih =>
    rw [List.flatMap_cons, ih]
    cases hn : n.kind.isImport with
    | true => simp [hn]
    | false => simp [hn, importedModules_eq_nil hn]

theorem exists_imports (source : String) (t : Tree) :
    ∃ modules, List.Forall₂ (Imports source) (t.nodes.filter (·.kind.isImport)) modules ∧
      t.dependencies source = modules.flatten := by
  refine ⟨_, ?_, dependencies_eq_flatten source t⟩
  rw [List.forall₂_map_right_iff, List.forall₂_same]
  intro n hn
  exact imports_importedModules (List.mem_filter.mp hn).2

end Tree

end Triage.Python
