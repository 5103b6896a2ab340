import Triage.Proofs.ImportedNames
import Triage.Proofs.Padding

/-!
# Imports in other words

Comments and joined lines may stand anywhere in an import statement, its names may have aliases, and
a statement that imports from a module may import any symbols. `Reworded` relates a tree to the
trees that differ from it in these things, and in where its nodes stand. The imports of a file are
the same in all of them.
-/

namespace Triage.Python

variable {source source' : String}

namespace Label

/-- What is no name and no module within a statement. -/
def StandsAlone (l : Label) : Prop := l.field ≠ some .name ∧ l.field ≠ some .moduleName

/-- A statement whose names stand for modules. -/
def HasNames (l : Label) : Prop := l.kind = .importStatement ∧ l.StandsAlone

/-- A statement that imports symbols from a module. -/
def HasSymbols (l : Label) : Prop :=
  (l.kind = .importFromStatement ∨ l.kind = .futureImportStatement) ∧ l.StandsAlone

/-- An import statement that stands alone. -/
def IsStatement (l : Label) : Prop := l.kind.isImport = true ∧ l.StandsAlone

theorem HasNames.isStatement {l : Label} (h : l.HasNames) : l.IsStatement :=
  ⟨by rw [h.1]; rfl, h.2⟩

theorem HasSymbols.isStatement {l : Label} (h : l.HasSymbols) : l.IsStatement := by
  obtain ⟨hkind | hkind, halone⟩ := h
  · exact ⟨by rw [hkind]; rfl, halone⟩
  · exact ⟨by rw [hkind]; rfl, halone⟩

end Label

namespace Tree

/-- Whether there is no import statement in a tree. -/
def importsNothing (t : Tree) : Bool := t.nodes.all (!·.kind.isImport)

/-- What stands in a statement that imports from a module, beside the module. -/
def IsSymbol (t : Tree) : Prop := t.field ≠ some .moduleName ∧ t.importsNothing = true

/-- A name in an import statement and the dotted name that is left of it without an alias. -/
inductive Unaliased : Tree → Tree → Prop
  | plain {d : Tree} (kind : d.kind = .dottedName) : Unaliased d d
  | aliased {l : Label} {before after : List Tree} {d : Tree} (kind : l.kind = .aliasedImport)
      (name : d.field = some .name) (first : ∀ c ∈ before, c.field ≠ some .name)
      (bare : ∀ c ∈ before ++ after, c.importsNothing = true) :
      Unaliased (.node l (before ++ d :: after)) d

/-- The children of a node in other words: extras are put in or taken out, a statement gets or loses
symbols, and a name gets, loses or changes its alias. Other children are related by `R`. -/
inductive RewordedRow (R : Tree → Tree → Prop) : List Tree → List Tree → Label → Prop
  | nil {l : Label} : RewordedRow R [] [] l
  | same {l : Label} {c d : Tree} {cs ds : List Tree} (first : R c d)
      (rest : RewordedRow R cs ds l) : RewordedRow R (c :: cs) (d :: ds) l
  | putExtra {l : Label} {cs ds : List Tree} (x : Padding) (rest : RewordedRow R cs ds l) :
      RewordedRow R cs (x.leaf :: ds) l
  | dropExtra {l : Label} {cs ds : List Tree} (x : Padding) (rest : RewordedRow R cs ds l) :
      RewordedRow R (x.leaf :: cs) ds l
  | putSymbol {l : Label} {s : Tree} {cs ds : List Tree}
      (statement : l.HasSymbols) (symbol : s.IsSymbol)
      (rest : RewordedRow R cs ds l) : RewordedRow R cs (s :: ds) l
  | dropSymbol {l : Label} {s : Tree} {cs ds : List Tree}
      (statement : l.HasSymbols) (symbol : s.IsSymbol)
      (rest : RewordedRow R cs ds l) : RewordedRow R (s :: cs) ds l
  | rename {l : Label} {c d n n' : Tree} {cs ds : List Tree}
      (statement : l.HasNames) (field : c.field = some .name)
      (field' : d.field = some .name) (name : Unaliased c n) (name' : Unaliased d n')
      (first : R n n') (rest : RewordedRow R cs ds l) : RewordedRow R (c :: cs) (d :: ds) l

/-- Trees of which the second one says its imports in other words. Nodes may stand elsewhere, and
identifiers keep their texts. -/
inductive Reworded (source source' : String) : Tree → Tree → Prop
  | node {l l' : Label} {cs ds : List Tree} (kind : l'.kind = l.kind) (field : l'.field = l.field)
      (text : l.kind = .identifier →
        textBetween source' l'.start l'.stop = textBetween source l.start l.stop)
      (children : RewordedRow (Reworded source source') cs ds l) :
      Reworded source source' (.node l cs) (.node l' ds)

namespace RewordedRow

variable {R : Tree → Tree → Prop} {l : Label} {cs ds : List Tree}

/-- What is read of the children one by one stays the same, when extras and symbols give nothing and
related children give the same. -/
theorem flatMap_eq {β : Type} {g g' : Tree → List β} (h : RewordedRow R cs ds l)
    (same : ∀ c ∈ cs, ∀ d, R c d → g' d = g c)
    (extra : ∀ x : Padding, g x.leaf = [] ∧ g' x.leaf = [])
    (symbol : l.HasSymbols → ∀ s, IsSymbol s → g s = [] ∧ g' s = [])
    (renames : l.HasNames → ∀ c ∈ cs, ∀ d n n', c.field = some .name →
      d.field = some .name → Unaliased c n → Unaliased d n' → R n n' → g' d = g c) :
    ds.flatMap g' = cs.flatMap g := by
  induction h with
  | nil => rfl
  | @same l c d cs ds first rest ih =>
    rw [List.flatMap_cons, List.flatMap_cons, same c List.mem_cons_self d first]
    rw [ih (fun e he => same e (List.mem_cons_of_mem c he)) symbol
      fun hl e he => renames hl e (List.mem_cons_of_mem c he)]
  | putExtra x rest ih =>
    rw [List.flatMap_cons, (extra x).2, List.nil_append, ih same symbol renames]
  | @dropExtra l cs ds x rest ih =>
    rw [List.flatMap_cons, (extra x).1, List.nil_append]
    exact ih (fun e he => same e (List.mem_cons_of_mem _ he)) symbol
      fun hl e he => renames hl e (List.mem_cons_of_mem _ he)
  | putSymbol statement hs rest ih =>
    rw [List.flatMap_cons, (symbol statement _ hs).2, List.nil_append, ih same symbol renames]
  | @dropSymbol l s cs ds statement hs rest ih =>
    rw [List.flatMap_cons, (symbol statement _ hs).1, List.nil_append]
    exact ih (fun e he => same e (List.mem_cons_of_mem _ he)) symbol
      fun hl e he => renames hl e (List.mem_cons_of_mem _ he)
  | @rename l c d n n' cs ds statement field field' name name' first rest ih =>
    rw [List.flatMap_cons, List.flatMap_cons,
      renames statement c List.mem_cons_self d n n' field field' name name' first]
    rw [ih (fun e he => same e (List.mem_cons_of_mem c he)) symbol
      fun hl e he => renames hl e (List.mem_cons_of_mem c he)]

/-- Where there are no aliases, the children that pass a test are read in the same way. -/
theorem map_filter_eq {β : Type} {p : Tree → Bool} {f f' : Tree → β} (h : RewordedRow R cs ds l)
    (test : ∀ c d, R c d → p d = p c) (same : ∀ c d, R c d → p c = true → f' d = f c)
    (extra : ∀ x : Padding, p x.leaf = false)
    (symbol : l.HasSymbols → ∀ s, IsSymbol s → p s = false)
    (names : ¬ l.HasNames) :
    (ds.filter p).map f' = (cs.filter p).map f := by
  have hmap : ∀ (g : Tree → β) (as : List Tree),
      (as.filter p).map g = as.flatMap fun a => if p a then [g a] else [] := by
    intro g as
    induction as with
    | nil => rfl
    | cons a as ih => cases hp : p a <;> simp [hp, ih]
  rw [hmap, hmap]
  refine h.flatMap_eq ?_ ?_ ?_ fun hl => absurd hl names
  · intro c _ d hcd
    cases hp : p c with
    | false => rw [test c d hcd, hp]; rfl
    | true => rw [test c d hcd, hp, if_pos rfl, if_pos rfl, same c d hcd hp]
  · intro x
    rw [extra x]
    exact ⟨rfl, rfl⟩
  · intro hl s hs
    rw [symbol hl s hs]
    exact ⟨rfl, rfl⟩

/-- The first child that passes a test is read in the same way. -/
theorem map_find?_eq {β : Type} {p : Tree → Bool} {f f' : Tree → β} (h : RewordedRow R cs ds l)
    (test : ∀ c d, R c d → p d = p c) (same : ∀ c d, R c d → p c = true → f' d = f c)
    (extra : ∀ x : Padding, p x.leaf = false)
    (symbol : l.HasSymbols → ∀ s, IsSymbol s → p s = false)
    (names : ¬ l.HasNames) : (ds.find? p).map f' = (cs.find? p).map f := by
  have hall := congrArg List.head? (h.map_filter_eq test same extra symbol names)
  rwa [List.head?_map, List.head?_map, List.head?_filter, List.head?_filter] at hall

end RewordedRow

/-- What is read of the module of a statement: its own name, or else the first name within it. -/
def moduleText (source : String) (m : Tree) : String :=
  if m.kind = .dottedName then m.dottedText source
  else ((m.namedChildren.find? (·.kind == .dottedName)).map (·.dottedText source)).getD ""

theorem fromModule_eq_moduleText (source : String) (t : Tree) :
    t.fromModule source = ((t.childBy? .moduleName).map (·.moduleText source)).getD "" := by
  rw [fromModule]
  cases t.childBy? .moduleName <;> rfl

namespace Reworded

variable {t t' : Tree}

theorem kind_eq (h : Reworded source source' t t') : t'.kind = t.kind := by
  cases h with
  | node kind _ _ _ => exact kind

theorem field_eq (h : Reworded source source' t t') : t'.field = t.field := by
  cases h with
  | node _ field _ _ => exact field

theorem text_eq (h : Reworded source source' t t') (hkind : t.kind = .identifier) :
    t'.text source' = t.text source := by
  cases h with
  | node _ _ text _ => exact text hkind

theorem row (h : Reworded source source' t t') :
    RewordedRow (Reworded source source') t.children t'.children t.label := by
  cases h with
  | node _ _ _ children => exact children

theorem test_kind (k : Kind) (c d : Tree) (h : Reworded source source' c d) :
    (d.kind == k) = (c.kind == k) := by
  rw [h.kind_eq]

theorem test_field (f : Field) (c d : Tree) (h : Reworded source source' c d) :
    (d.field == some f) = (c.field == some f) := by
  rw [h.field_eq]

/-- A name is joined from the same identifiers. -/
theorem joined_eq (h : Reworded source source' t t')
    (hname : t.kind = .dottedName ∨ t.field = some .name) :
    t'.joined source' = t.joined source := by
  have hstatement : ¬ t.label.IsStatement := by
    rintro ⟨himport, hfield, -⟩
    rcases hname with hdotted | hfield'
    · rw [show t.label.kind = .dottedName from hdotted] at himport
      cases himport
    · exact hfield hfield'
  have hsame : ∀ c d, Reworded source source' c d → (c.kind == .identifier) = true →
      d.text source' = c.text source := fun c d hcd hp => hcd.text_eq (eq_of_beq hp)
  rw [joined, joined, h.row.map_filter_eq (test_kind _) hsame (fun x => by cases x <;> rfl)
    (fun hl => absurd hl.isStatement hstatement) fun hl => hstatement hl.isStatement]

theorem importedModule?_eq (h : Reworded source source' t t') :
    t'.importedModule? source' = t.importedModule? source := by
  rw [importedModule?, importedModule?, h.kind_eq]
  split
  · rename_i hkind
    rw [dottedText_eq_joined, dottedText_eq_joined, h.joined_eq (Or.inl hkind)]
  · rename_i hkind
    have hstatement : ¬ t.label.IsStatement := by
      rintro ⟨himport, -⟩
      rw [show t.label.kind = .aliasedImport from hkind] at himport
      cases himport
    simp only [dottedText_eq_joined]
    exact h.row.map_find?_eq (test_field .name)
      (fun c d hcd hp => hcd.joined_eq (Or.inr (eq_of_beq hp))) (fun x => by cases x <;> rfl)
      (fun hl => absurd hl.isStatement hstatement) fun hl => hstatement hl.isStatement
  · rfl

/-- The module of a statement is read of the same names. -/
theorem fromModule_eq (h : Reworded source source' t t') (hkind : t.kind = .importFromStatement) :
    t'.fromModule source' = t.fromModule source := by
  have hsame : ∀ c d, Reworded source source' c d → (c.field == some .moduleName) = true →
      d.moduleText source' = c.moduleText source := by
    intro c d hcd hfield
    have hmodule : ¬ c.label.StandsAlone := fun hl => hl.2 (eq_of_beq hfield)
    simp only [moduleText, hcd.kind_eq, dottedText_eq_joined, find?_dottedName]
    split
    · rename_i hdotted
      exact hcd.joined_eq (Or.inl hdotted)
    · rw [hcd.row.map_find?_eq (test_kind .dottedName)
        (fun _ _ hname hp => hname.joined_eq (Or.inl (eq_of_beq hp)))
        (fun x => by cases x <;> rfl) (fun hl => absurd hl.2 hmodule) fun hl => hmodule hl.2]
  have hnames : ¬ t.label.HasNames := fun hl => absurd (hl.1.symm.trans hkind) (by decide)
  rw [fromModule_eq_moduleText, fromModule_eq_moduleText]
  exact congrArg (·.getD "") (h.row.map_find?_eq (test_field .moduleName) hsame
    (fun x => by cases x <;> rfl) (fun _ s hs => by simpa using hs.1) hnames)

end Reworded

namespace Unaliased

variable {c n : Tree}

theorem importedModule?_eq (h : Unaliased c n) :
    c.importedModule? source = some (n.joined source) := by
  cases h with
  | plain kind => rw [Tree.importedModule?, kind, dottedText_eq_joined]
  | @aliased l before after _ kind name first _ =>
    have hname : IsFirst (·.field == some .name) (before ++ n :: after) n :=
      ⟨before, after, rfl, by simpa using name, fun c hc => by simpa using first c hc⟩
    exact namesModule_iff.mp (.aliased kind hname)

theorem kind_or_field (h : Unaliased c n) : n.kind = .dottedName ∨ n.field = some .name := by
  cases h with
  | plain kind => exact Or.inl kind
  | aliased _ name _ _ => exact Or.inr name

end Unaliased

theorem dependencies_node (source : String) (l : Label) (cs : List Tree) :
    dependencies source (.node l cs) =
      importedModules source (.node l cs) ++ cs.flatMap (dependencies source) := by
  simp only [dependencies, nodes_node, List.flatMap_cons, List.flatMap_assoc]
  rfl

theorem dependencies_eq_nil {t : Tree} (h : t.importsNothing = true) :
    t.dependencies source = [] := by
  rw [dependencies, List.flatMap_eq_nil_iff]
  intro n hn
  exact importedModules_eq_nil (by simpa using List.all_eq_true.mp h n hn)

/-- Without its alias, a name imports what it does with it. -/
theorem Unaliased.dependencies {c n : Tree} (h : Unaliased c n) :
    c.dependencies source = n.dependencies source := by
  cases h with
  | plain _ => rfl
  | @aliased l before after _ kind _ _ bare =>
    have hnone : ∀ cs : List Tree, (∀ c ∈ cs, c.importsNothing = true) →
        cs.flatMap (Tree.dependencies source) = [] := fun cs hcs =>
      List.flatMap_eq_nil_iff.mpr fun c hc => dependencies_eq_nil (hcs c hc)
    have hkind : Tree.kind (.node l (before ++ n :: after)) = .aliasedImport := kind
    have hown : importedModules source (.node l (before ++ n :: after)) = [] :=
      importedModules_eq_nil (by rw [hkind]; rfl)
    rw [dependencies_node, hown, List.nil_append, List.flatMap_append, List.flatMap_cons,
      hnone before fun c hc => bare c (List.mem_append_left _ hc),
      hnone after fun c hc => bare c (List.mem_append_right _ hc), List.nil_append, List.append_nil]

theorem Unaliased.mem_nodes {c n : Tree} (h : Unaliased c n) : n ∈ c.nodes := by
  cases h with
  | plain _ => exact self_mem_nodes _
  | aliased _ _ _ _ =>
    exact mem_nodes_of_child (List.mem_append_right _ List.mem_cons_self) (self_mem_nodes n)

/-- A statement in other words imports the same modules. -/
theorem Reworded.importedModules_eq {t t' : Tree} (h : Reworded source source' t t') :
    t'.importedModules source' = t.importedModules source := by
  rw [importedModules, importedModules, h.kind_eq]
  split
  · rename_i hkind
    have hlabel : t.label.kind = .importStatement := hkind
    have hsymbols : ¬ t.label.HasSymbols := fun hl => by simp [Label.HasSymbols, hlabel] at hl
    rw [childrenBy, childrenBy, List.filterMap_filter, List.filterMap_filter,
      List.filterMap_eq_flatMap_toList, List.filterMap_eq_flatMap_toList]
    refine h.row.flatMap_eq ?_ (fun x => by cases x <;> exact ⟨rfl, rfl⟩)
      (fun hl => absurd hl hsymbols) ?_
    · intro c _ d hcd
      rw [hcd.field_eq, hcd.importedModule?_eq]
    · intro _ c _ d n n' hc hd hn hn' hname
      rw [hc, hd, hn.importedModule?_eq, hn'.importedModule?_eq, hname.joined_eq hn.kind_or_field]
  · rename_i hkind
    rw [h.fromModule_eq hkind]
  · rfl
  · rfl

/-- A file in which imports are said in other words imports the same modules. -/
theorem Reworded.dependencies_eq {t t' : Tree} (h : Reworded source source' t t') :
    t'.dependencies source' = t.dependencies source := by
  -- The dotted name that loses its alias is no child of the statement, but a node of one.
  have hall : ∀ n ∈ t.nodes, ∀ n', Reworded source source' n n' →
      n'.dependencies source' = n.dependencies source := by
    clear h
    induction t using Tree.induction with
    | node l cs ih =>
      intro n hn n' h
      rw [nodes_node] at hn
      rcases List.mem_cons.mp hn with rfl | hn
      · obtain ⟨l', ds⟩ := n'
        rw [dependencies_node, dependencies_node, h.importedModules_eq]
        congr 1
        refine h.row.flatMap_eq ?_ (fun x => by cases x <;> exact ⟨rfl, rfl⟩) ?_ ?_
        · exact fun c hc d hcd => ih c hc c (self_mem_nodes c) d hcd
        · exact fun _ s hs => ⟨dependencies_eq_nil hs.2, dependencies_eq_nil hs.2⟩
        · intro _ c hc d m m' _ _ hm hm' hname
          rw [hm.dependencies, hm'.dependencies, ih c hc m hm.mem_nodes m' hname]
      · obtain ⟨c, hc, hn⟩ := List.mem_flatMap.mp hn
        exact ih c hc n hn n' h
  exact hall t (self_mem_nodes t) t' h

/-- The imports of a file are those of its import statements, in the order of the walk. They do not
depend on extras in the statements, on aliases, or on what is imported from a module. -/
theorem dependencies_are_modules (source : String) (t : Tree) :
    (∃ modules, List.Forall₂ (Imports source) (t.nodes.filter (·.kind.isImport)) modules ∧
      t.dependencies source = modules.flatten) ∧
    ∀ source' t', Reworded source source' t t' → t'.dependencies source' = t.dependencies source :=
  ⟨exists_imports source t, fun _ _ h => h.dependencies_eq⟩

/-- Two imports, and the same two with an alias, a joined line and another symbol. -/
def importText : String := "import a\nfrom .c import d\n"

def rewordedText : String := "import a as x\nfrom .\\\nc import *\n"

/-- A dotted name of one letter. -/
def letterName (field : Option Field) (start row : Nat) : Tree :=
  .node { kind := .dottedName, field := field, start := start, stop := start + 1, row := row }
    [.node { kind := .identifier, start := start, stop := start + 1, row := row } []]

def keyword (text : String) (start stop row : Nat) : Tree :=
  .node { kind := .token text, start := start, stop := stop, row := row } []

def importTree : Tree :=
  .node { kind := .root, start := 0, stop := 26 }
    [.node { kind := .importStatement, start := 0, stop := 8 }
      [keyword "import" 0 6 0, letterName (some .name) 7 0],
    .node { kind := .importFromStatement, start := 9, stop := 25, row := 1 }
      [keyword "from" 9 13 1,
      .node
        { kind := .relativeImport, field := some .moduleName, start := 14, stop := 16, row := 1 }
        [.node { kind := .importPrefix, start := 14, stop := 15, row := 1 } [keyword "." 14 15 1],
        letterName none 15 1],
      keyword "import" 17 23 1, letterName (some .name) 24 1]]

def rewordedTree : Tree :=
  .node { kind := .root, start := 0, stop := 33 }
    [.node { kind := .importStatement, start := 0, stop := 13 }
      [keyword "import" 0 6 0,
      .node { kind := .aliasedImport, field := some .name, start := 7, stop := 13 }
        [letterName (some .name) 7 0, keyword "as" 9 11 0,
        .node { kind := .identifier, field := some .newName, start := 12, stop := 13 } []]],
    .node { kind := .importFromStatement, start := 14, stop := 32, row := 1 }
      [keyword "from" 14 18 1,
      .node
        { kind := .relativeImport, field := some .moduleName, start := 19, stop := 23, row := 1 }
        [.node { kind := .importPrefix, start := 19, stop := 20, row := 1 } [keyword "." 19 20 1],
        (Padding.join ⟨20, 22, 1⟩).leaf, letterName none 22 2],
      keyword "import" 24 30 2,
      .node { kind := .wildcardImport, start := 31, stop := 32, row := 2 } []]]

theorem Reworded.keyword (text : String) (start stop row start' stop' row' : Nat) :
    Reworded source source' (keyword text start stop row) (keyword text start' stop' row') :=
  .node rfl rfl nofun .nil

theorem Reworded.letterName (field : Option Field) {start start' : Nat} (row row' : Nat)
    (h : textBetween source' start' (start' + 1) = textBetween source start (start + 1)) :
    Reworded source source' (letterName field start row) (letterName field start' row') :=
  .node rfl rfl nofun (.same (.node rfl rfl (fun _ => h) .nil) .nil)

theorem reworded_importTree : Reworded importText rewordedText importTree rewordedTree := by
  have hname : Unaliased (.node _ ([] ++ letterName (some .name) 7 0 :: [Tree.keyword "as" 9 11 0,
      .node { kind := .identifier, field := some .newName, start := 12, stop := 13 } []]))
      (letterName (some .name) 7 0) :=
    .aliased (l := { kind := .aliasedImport, field := some .name, start := 7, stop := 13 }) rfl rfl
      nofun (by decide)
  have hsymbols :
      Label.HasSymbols { kind := .importFromStatement, start := 9, stop := 25, row := 1 } :=
    ⟨Or.inl rfl, by decide, by decide⟩
  refine .node rfl rfl nofun (.same ?_ (.same ?_ .nil))
  · refine .node rfl rfl nofun (.same (.keyword ..) ?_)
    exact .rename ⟨rfl, by decide, by decide⟩ rfl rfl (.plain rfl) hname
      (.letterName _ 0 0 (by decide +kernel)) .nil
  · refine .node rfl rfl nofun (.same (.keyword ..) (.same ?_ (.same (.keyword ..) ?_)))
    · exact .node rfl rfl nofun (.same (.node rfl rfl nofun (.same (.keyword ..) .nil))
        (.putExtra _ (.same (.letterName _ 1 2 (by decide +kernel)) .nil)))
    · exact .dropSymbol hsymbols ⟨by decide, by decide⟩
        (.putSymbol hsymbols ⟨by decide, by decide⟩ .nil)

/-- Both files import `a` and `c`. -/
theorem dependencies_are_modules_importTree :
    Reworded importText rewordedText importTree rewordedTree ∧
      rewordedTree.dependencies rewordedText = importTree.dependencies importText ∧
      rewordedTree.dependencies rewordedText = ["a", "c"] := by
  have hsame := (dependencies_are_modules importText importTree).2 rewordedText rewordedTree
    reworded_importTree
  have hfirst : importTree.dependencies importText = ["a", "c"] := by decide +kernel
  exact ⟨reworded_importTree, hsame, hsame.trans hfirst⟩

end Tree

end Triage.Python
