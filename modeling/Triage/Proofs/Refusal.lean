import Mathlib
import Triage.Proofs.Files.ReadBack
import Triage.Proofs.TreePaths
import Triage.SourceFile

/-!
# What is refused, and for what

A reader makes a tree of every text, and marks it when there is something that it could not read.
A tree is refused at its first fault, whatever stands before it, or else at its first statement of
the old language. Of a file four things are asked in turn, and the first one that fails decides.
-/

namespace Triage

open Files

namespace Python

namespace Tree

/-- Text that cannot be read, or that should have been there. -/
def IsFaulty (n : Tree) : Prop := n.kind = .error ∨ n.label.missing = true

/-- A statement that the language no longer has, or a clause with a comma of its own. -/
def IsOutdated (n : Tree) : Prop :=
  n.kind = .printStatement ∨ n.kind = .execStatement ∨
    n.kind = .exceptClause ∧ ∃ c ∈ n.children, c.kind = .token ","

/-- No node at any depth has the property. -/
def IsFree (P : Tree → Prop) (t : Tree) : Prop := ∀ p n, t.at? p = some n → ¬ P n

/-- The first node with the property in pre-order, at whatever depth. -/
def IsFirst (P : Tree → Prop) (t n : Tree) : Prop :=
  ∃ p, t.at? p = some n ∧ P n ∧ ∀ q m, t.at? q = some m → P m → p ≤ q

theorem isFault_iff {n : Tree} : n.isFault = true ↔ n.IsFaulty := by
  simp [isFault, IsFaulty]

theorem isLegacy_iff {n : Tree} : n.isLegacy = true ↔ n.IsOutdated := by
  unfold isLegacy IsOutdated
  cases n.kind <;> simp

theorem nodes_eq_map_places (t : Tree) : t.nodes = t.places.map (·.2) := by
  rw [nodes_eq_preorder, map_places]

section Search

variable {test : Tree → Bool} {P : Tree → Prop} {t : Tree}

theorem find?_nodes_eq_none_iff (h : ∀ {n}, test n = true ↔ P n) :
    t.nodes.find? test = none ↔ t.IsFree P := by
  rw [nodes_eq_map_places, List.find?_eq_none]
  constructor
  · intro hnone p n hn hP
    exact hnone n (List.mem_map.mpr ⟨(p, n), mem_places_iff.mpr hn, rfl⟩) (h.mpr hP)
  · intro hfree n hn htest
    obtain ⟨⟨p, m⟩, hp, rfl⟩ := List.mem_map.mp hn
    exact hfree p m (mem_places_iff.mp hp) (h.mp htest)

/-- A search through the nodes finds the one whose path comes before all others. -/
theorem find?_nodes_eq_some_iff (h : ∀ {n}, test n = true ↔ P n) {n : Tree} :
    t.nodes.find? test = some n ↔ t.IsFirst P n := by
  have hsorted := pairwise_places t
  rw [nodes_eq_map_places, List.find?_map, Option.map_eq_some_iff]
  constructor
  · rintro ⟨⟨p, m⟩, hfind, rfl⟩
    obtain ⟨htest, before, after, hsplit, hbefore⟩ := List.find?_eq_some_iff_append.mp hfind
    refine ⟨p, mem_places_iff.mp (hsplit ▸ by simp), h.mp htest, fun q k hk hP => ?_⟩
    have hmem := mem_places_iff.mpr hk
    rw [hsplit] at hmem hsorted
    -- What stands before the node fails the test, and what stands after it has a greater path.
    rcases List.mem_append.mp hmem with hmem | hmem
    · have hnot := hbefore (q, k) hmem
      rw [Function.comp_apply, h.mpr hP] at hnot
      cases hnot
    · rcases List.mem_cons.mp hmem with heq | hmem
      · exact (Prod.mk.inj heq).1.ge
      · have hafter := (List.pairwise_append.mp hsorted).2.1
        exact (List.rel_of_pairwise_cons hafter hmem).le
  · rintro ⟨p, hn, hP, hfirst⟩
    obtain ⟨before, after, hsplit⟩ := List.append_of_mem (mem_places_iff.mpr hn)
    refine ⟨(p, n), List.find?_eq_some_iff_append.mpr ⟨h.mpr hP, before, after, hsplit, ?_⟩, rfl⟩
    rintro ⟨q, m⟩ hq
    have hm : t.at? q = some m := mem_places_iff.mp (hsplit ▸ List.mem_append_left _ hq)
    have hlt : q < p := by
      rw [hsplit] at hsorted
      exact (List.pairwise_append.mp hsorted).2.2 _ hq _ List.mem_cons_self
    rw [Function.comp_apply, Bool.not_eq_true', ← Bool.not_eq_true, h]
    exact fun hPm => (hfirst q m hm hPm).not_gt hlt

end Search

/-- What comes of a tree: the line of the first fault, or else of the first outdated statement, or
else the tree itself. -/
inductive ComesTo (t : Tree) : Except Nat Tree → Prop
  | faulty {n : Tree} (first : t.IsFirst IsFaulty n) : ComesTo t (.error n.line)
  | outdated {n : Tree} (sound : t.IsFree IsFaulty) (first : t.IsFirst IsOutdated n) :
      ComesTo t (.error n.line)
  | accepted (sound : t.IsFree IsFaulty) (current : t.IsFree IsOutdated) : ComesTo t (.ok t)

/-- The same, by two searches through the nodes. -/
def judged (t : Tree) : Except Nat Tree :=
  match t.nodes.find? isFault with
  | some n => .error n.line
  | none =>
    match t.nodes.find? isLegacy with
    | some n => .error n.line
    | none => .ok t

theorem judged_eq_iff {t : Tree} {result : Except Nat Tree} :
    t.judged = result ↔ t.ComesTo result := by
  constructor
  · rintro rfl
    unfold judged
    cases hfault : t.nodes.find? isFault with
    | some n => exact .faulty ((find?_nodes_eq_some_iff isFault_iff).mp hfault)
    | none =>
      have sound := (find?_nodes_eq_none_iff isFault_iff).mp hfault
      cases hlegacy : t.nodes.find? isLegacy with
      | some n => exact .outdated sound ((find?_nodes_eq_some_iff isLegacy_iff).mp hlegacy)
      | none => exact .accepted sound ((find?_nodes_eq_none_iff isLegacy_iff).mp hlegacy)
  · intro h
    unfold judged
    cases h with
    | faulty first => rw [(find?_nodes_eq_some_iff isFault_iff).mpr first]
    | outdated sound first =>
      rw [(find?_nodes_eq_none_iff isFault_iff).mpr sound,
        (find?_nodes_eq_some_iff isLegacy_iff).mpr first]
    | accepted sound current =>
      rw [(find?_nodes_eq_none_iff isFault_iff).mpr sound,
        (find?_nodes_eq_none_iff isLegacy_iff).mpr current]

/-- A tree is accepted exactly when no node at any depth is faulty or outdated. -/
theorem exists_judged_iff {t : Tree} :
    (∃ accepted, t.judged = .ok accepted) ↔
      ∀ p n, t.at? p = some n → ¬ n.IsFaulty ∧ ¬ n.IsOutdated := by
  constructor
  · rintro ⟨accepted, haccepted⟩
    cases judged_eq_iff.mp haccepted with
    | accepted sound current => exact fun p n hn => ⟨sound p n hn, current p n hn⟩
  · intro h
    exact ⟨t, judged_eq_iff.mpr (.accepted (fun p n hn => (h p n hn).1) fun p n hn => (h p n hn).2)⟩

end Tree

theorem parse?_eq_judged (source : String) : parse? source = (parse source).judged := by
  have hrefused : (parse source).refusedLine? =
      match (parse source).nodes.find? Tree.isFault with
      | some fault => some fault.line
      | none => ((parse source).nodes.find? Tree.isLegacy).map Tree.line := rfl
  unfold parse? Tree.judged
  dsimp only
  rw [hrefused]
  cases (parse source).nodes.find? Tree.isFault with
  | some n => rfl
  | none => cases (parse source).nodes.find? Tree.isLegacy <;> rfl

/-- What a reader makes of a text: a tree, marked when it holds a fault. -/
structure Reading where
  tree : Tree
  marked : Bool

namespace Reading

variable {r : Reading}

/-- The mark is there exactly when some node is faulty. -/
def IsExact (r : Reading) : Prop := r.marked = true ↔ ¬ r.tree.IsFree Tree.IsFaulty

/-- The tree, or the line on which it is refused. The mark alone decides whether faults are looked
for; `blind` is the line to name when none is found. -/
def accept? (blind : Nat) (r : Reading) : Except Nat Tree :=
  if r.marked then
    .error (((r.tree.nodes.find? Tree.isFault).map Tree.line).getD blind)
  else
    match r.tree.nodes.find? Tree.isLegacy with
    | some n => .error n.line
    | none => .ok r.tree

/-- The reading that the grammar gives. -/
def ofText (source : String) : Reading :=
  ⟨parse source, (parse source).nodes.any Tree.isFault⟩

theorem isExact_iff : r.IsExact ↔ r.marked = r.tree.nodes.any Tree.isFault := by
  have hany : r.tree.nodes.any Tree.isFault = true ↔ ¬ r.tree.IsFree Tree.IsFaulty := by
    rw [← Tree.find?_nodes_eq_none_iff Tree.isFault_iff, List.find?_eq_none, List.any_eq_true]
    push Not
    rfl
  constructor
  · exact fun h => Bool.eq_iff_iff.mpr (h.trans hany.symm)
  · intro h
    rw [IsExact, h, hany]

/-- When the mark is right, no line is ever named blindly. -/
theorem accept?_eq_judged (exact : r.IsExact) (blind : Nat) : r.accept? blind = r.tree.judged := by
  rw [IsExact, ← Tree.find?_nodes_eq_none_iff Tree.isFault_iff] at exact
  unfold accept? Tree.judged
  cases hfault : r.tree.nodes.find? Tree.isFault with
  | some n =>
    have hmarked : r.marked = true := exact.mpr (by simp [hfault])
    rw [if_pos hmarked]
    rfl
  | none =>
    have hunmarked : r.marked ≠ true := fun hmarked => exact.mp hmarked hfault
    rw [if_neg hunmarked]

end Reading

end Python

namespace Text

theorem decode?_eq_some_iff {bytes : ByteArray} {s : String} :
    decode? bytes = some s ↔ s.toUTF8 = bytes := by
  constructor
  · intro h
    unfold decode? String.fromUTF8? at h
    split at h
    · exact Option.some.inj h ▸ rfl
    · cases h
  · rintro rfl
    exact FileSystem.decode?_toUTF8 s

theorem decode?_eq_none_iff {bytes : ByteArray} :
    decode? bytes = none ↔ ∀ s : String, s.toUTF8 ≠ bytes := by
  simp only [Option.eq_none_iff_forall_ne_some, ne_eq, decode?_eq_some_iff]

end Text

namespace SourceFile

open Python (Reading)

/-- What the bytes of a file are read as, when `accept?` reads its text. -/
def ofBytes (accept? : String → Except Nat Python.Tree) (language : Language) (p : Path) :
    Except IoError ByteArray → Except ParseError SourceFile
  | .error e => .error (.unreadable e)
  | .ok bytes =>
    match Text.decode? bytes with
    | none => .error .notText
    | some source =>
      match accept? source with
      | .error line => .error (.malformed line)
      | .ok tree => .ok ⟨language, tree, source, some p.text⟩

/-- What a file in no known language is refused with. -/
def unknownLanguage (p : Path) : ParseError :=
  .unsupportedExtension ((Language.extensionText? p).getD "none")

/-- Read a file when `accept?` reads its text. -/
def loadWith (accept? : String → Except Nat Python.Tree) (fs : FileSystem) (p : Path) :
    Except ParseError SourceFile :=
  match Language.ofPath? p with
  | none => .error (unknownLanguage p)
  | some language => ofBytes accept? language p (fs.readBytes p)

theorem load_eq_loadWith : load = loadWith Python.parse? := by
  funext fs p
  unfold load loadWith
  cases Language.ofPath? p with
  | none => rfl
  | some language =>
    cases language
    unfold ofBytes ofText
    cases fs.readBytes p with
    | error e => rfl
    | ok bytes =>
      dsimp only
      cases Text.decode? bytes with
      | none => rfl
      | some source =>
        dsimp only
        cases Python.parse? source <;> rfl

/-- What comes of a file whose texts are read by `read`: its extension, its bytes, its text and its
syntax are looked at in turn, and the first of them that is not in order decides. -/
inductive ComesTo (read : String → Reading) (fs : FileSystem) (p : Path) :
    Except ParseError SourceFile → Prop
  | unknown (extension : Language.ofPath? p = none) :
      ComesTo read fs p (.error (unknownLanguage p))
  | unreadable {language : Language} {e : IoError}
      (extension : Language.ofPath? p = some language) (bytes : fs.readBytes p = .error e) :
      ComesTo read fs p (.error (.unreadable e))
  | notText {language : Language} {content : ByteArray}
      (extension : Language.ofPath? p = some language) (bytes : fs.readBytes p = .ok content)
      (text : ∀ source : String, source.toUTF8 ≠ content) : ComesTo read fs p (.error .notText)
  | malformed {language : Language} {source : String} {line : Nat}
      (extension : Language.ofPath? p = some language) (bytes : fs.readBytes p = .ok source.toUTF8)
      (refused : (read source).tree.ComesTo (.error line)) :
      ComesTo read fs p (.error (.malformed line))
  | accepted {language : Language} {source : String} {tree : Python.Tree}
      (extension : Language.ofPath? p = some language) (bytes : fs.readBytes p = .ok source.toUTF8)
      (accepted : (read source).tree.ComesTo (.ok tree)) :
      ComesTo read fs p (.ok ⟨language, tree, source, some p.text⟩)

theorem loadWith_eq_iff {accept? : String → Except Nat Python.Tree} {read : String → Reading}
    (judges : ∀ s, accept? s = (read s).tree.judged) {fs : FileSystem} {p : Path}
    {result : Except ParseError SourceFile} :
    loadWith accept? fs p = result ↔ ComesTo read fs p result := by
  constructor
  · rintro rfl
    unfold loadWith
    cases hextension : Language.ofPath? p with
    | none => exact .unknown hextension
    | some language =>
      dsimp only
      cases hbytes : fs.readBytes p with
      | error e => exact .unreadable hextension hbytes
      | ok content =>
        cases htext : Text.decode? content with
        | none =>
          simp only [ofBytes, htext]
          exact .notText hextension hbytes (Text.decode?_eq_none_iff.mp htext)
        | some source =>
          obtain rfl := Text.decode?_eq_some_iff.mp htext
          have hjudged := Python.Tree.judged_eq_iff.mp (judges source).symm
          cases hresult : accept? source with
          | error line =>
            simp only [ofBytes, htext, hresult]
            exact .malformed hextension hbytes (hresult ▸ hjudged)
          | ok tree =>
            simp only [ofBytes, htext, hresult]
            exact .accepted hextension hbytes (hresult ▸ hjudged)
  · intro h
    unfold loadWith
    cases h with
    | unknown hextension => rw [hextension]
    | unreadable hextension hbytes => rw [hextension, hbytes]; rfl
    | notText hextension hbytes htext =>
      rw [hextension, hbytes]
      simp only [ofBytes, Text.decode?_eq_none_iff.mpr htext]
    | malformed hextension hbytes hrefused =>
      rw [hextension, hbytes]
      simp only [ofBytes, FileSystem.decode?_toUTF8, judges,
        Python.Tree.judged_eq_iff.mpr hrefused]
    | accepted hextension hbytes haccepted =>
      rw [hextension, hbytes]
      simp only [ofBytes, FileSystem.decode?_toUTF8, judges,
        Python.Tree.judged_eq_iff.mpr haccepted]

theorem tree_of_loadWith {accept? : String → Except Nat Python.Tree} {read : String → Reading}
    (judges : ∀ s, accept? s = (read s).tree.judged) {fs : FileSystem} {p : Path} {f : SourceFile}
    (h : loadWith accept? fs p = .ok f) (q : List Nat) (n : Python.Tree)
    (hn : f.tree.at? q = some n) : ¬ n.IsFaulty ∧ ¬ n.IsOutdated := by
  cases (loadWith_eq_iff judges).mp h with
  | accepted hextension hbytes haccepted =>
    cases haccepted with
    | accepted sound current => exact ⟨sound q n hn, current q n hn⟩

/-- However texts are read, as long as faulty trees are marked: a tree is accepted exactly when no
node at any depth is faulty or outdated, and refused on the line of its first fault, or else of its
first outdated statement, whatever line would be named blindly. A file comes to what its extension,
its bytes, its text and its syntax say, in this order, and only an accepted tree is handed on. The
grammar reads texts so. -/
theorem first_failure_decides (read : String → Reading) (exact : ∀ s, (read s).IsExact)
    (blind : Nat) :
    (∀ s, (∃ tree, (read s).accept? blind = .ok tree) ↔
        ∀ p n, (read s).tree.at? p = some n → ¬ n.IsFaulty ∧ ¬ n.IsOutdated) ∧
      (∀ s result, (read s).accept? blind = result ↔ (read s).tree.ComesTo result) ∧
      (∀ fs p result, loadWith (fun s => (read s).accept? blind) fs p = result ↔
        ComesTo read fs p result) ∧
      (∀ fs p f, loadWith (fun s => (read s).accept? blind) fs p = .ok f →
        ∀ q n, f.tree.at? q = some n → ¬ n.IsFaulty ∧ ¬ n.IsOutdated) ∧
      (∀ s, (Reading.ofText s).IsExact ∧
        Python.parse? s = (Reading.ofText s).accept? blind) ∧
      load = loadWith fun s => (Reading.ofText s).accept? blind := by
  have judges : ∀ s, (read s).accept? blind = (read s).tree.judged :=
    fun s => Reading.accept?_eq_judged (exact s) blind
  have grammar : ∀ s, Python.parse? s = (Reading.ofText s).accept? blind := fun s => by
    rw [Reading.accept?_eq_judged (Reading.isExact_iff.mpr rfl), Python.parse?_eq_judged]
    rfl
  refine ⟨fun s => ?_, fun s result => ?_, fun fs p result => loadWith_eq_iff judges,
    fun fs p f => tree_of_loadWith judges, fun s => ⟨Reading.isExact_iff.mpr rfl, grammar s⟩, ?_⟩
  · rw [judges]
    exact Python.Tree.exists_judged_iff
  · rw [judges]
    exact Python.Tree.judged_eq_iff
  · rw [load_eq_loadWith]
    exact congrArg loadWith (funext grammar)

/-- A printing statement, and a fault below a later one. -/
def lateFault : Python.Tree :=
  .node ⟨.root, none, 0, 9, 0, false⟩
    [.node ⟨.printStatement, none, 0, 3, 0, false⟩ [],
      .node ⟨.expressionStatement, none, 4, 9, 1, false⟩ [.node ⟨.error, none, 6, 9, 2, false⟩ []]]

/-- An exception clause over `cs`. -/
def clauseOver (cs : List Python.Tree) : Python.Tree :=
  .node ⟨.root, none, 0, 9, 0, false⟩
    [.node ⟨.tryStatement, none, 0, 9, 0, false⟩ [.node ⟨.exceptClause, none, 5, 9, 3, false⟩ cs]]

/-- A comma. -/
def commaLeaf : Python.Tree := .node ⟨.token ",", none, 7, 8, 3, false⟩ []

/-- A late fault, a clause with a comma of its own, and one with a comma further down. -/
def fewReadings : String → Reading
  | "fault" => ⟨lateFault, true⟩
  | "own" => ⟨clauseOver [commaLeaf], false⟩
  | _ => ⟨clauseOver [.node ⟨.tuple, none, 6, 9, 3, false⟩ [commaLeaf]], false⟩

def fewFiles : FileSystem where
  entries := [([nameOf "b.PYI"], .file "own".toUTF8), ([nameOf "c.txt"], .file "own".toUTF8)]

theorem isExact_fewReadings (s : String) : (fewReadings s).IsExact := by
  unfold fewReadings
  split <;> exact Reading.isExact_iff.mpr (by decide)

/-- The late fault counts, not the statement in front of it; a comma further down does not. -/
theorem first_failure_decides_fewReadings :
    (∀ s, (fewReadings s).IsExact) ∧
      lateFault.IsFirst Python.Tree.IsOutdated (.node ⟨.printStatement, none, 0, 3, 0, false⟩ []) ∧
      (fewReadings "fault").accept? 7 = .error 3 ∧
      (∃ tree, (fewReadings "inner").accept? 7 = .ok tree) ∧
      loadWith (fun s => (fewReadings s).accept? 7) fewFiles (.ofString "b.PYI") =
        .error (.malformed 4) ∧
      loadWith (fun s => (fewReadings s).accept? 7) fewFiles (.ofString "c.txt") =
        .error (.unsupportedExtension "txt") := by
  obtain ⟨-, haccept, hload, -⟩ := first_failure_decides fewReadings isExact_fewReadings 7
  have hprint : lateFault.IsFirst Python.Tree.IsOutdated
      (.node ⟨.printStatement, none, 0, 3, 0, false⟩ []) :=
    (Python.Tree.find?_nodes_eq_some_iff Python.Tree.isLegacy_iff).mp rfl
  have hfault : lateFault.IsFirst Python.Tree.IsFaulty (.node ⟨.error, none, 6, 9, 2, false⟩ []) :=
    (Python.Tree.find?_nodes_eq_some_iff Python.Tree.isFault_iff).mp rfl
  have hown : (clauseOver [commaLeaf]).ComesTo (.error 4) := Python.Tree.judged_eq_iff.mp rfl
  have hstub : Language.ofPath? (.ofString "b.PYI") = some .python := by cbv
  have hbytes : fewFiles.readBytes (.ofString "b.PYI") = .ok "own".toUTF8 := by cbv
  have hother : Language.ofPath? (.ofString "c.txt") = none := by cbv
  have hunknown : unknownLanguage (.ofString "c.txt") = .unsupportedExtension "txt" := by cbv
  rw [← hunknown]
  exact ⟨isExact_fewReadings, hprint, (haccept "fault" _).mpr (.faulty hfault),
    ⟨_, (haccept "inner" _).mpr (Python.Tree.judged_eq_iff.mp rfl)⟩,
    (hload fewFiles _ _).mpr (.malformed hstub hbytes hown),
    (hload fewFiles _ _).mpr (.unknown hother)⟩

end SourceFile

end Triage
