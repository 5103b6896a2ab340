import Triage.Scan

/-!
# One reader for all files

A scan may keep one reader for all its files. What the reader carries from one file to the next is
the language whose grammar is loaded, so whatever it has read before, it reads a file as a fresh
reader does, and never finds itself without a grammar.
-/

namespace Triage

open Files

/-- A reader between two files: the language whose grammar is loaded, and the one that it knows to
be loaded. -/
structure Reader where
  loaded : Option Language := none
  active : Option Language := none
  loaded_eq_active : loaded = active := by rfl

namespace Reader

/-- Load the grammar of a language, unless it is known to be loaded. -/
def select (r : Reader) (language : Language) : Reader :=
  if r.active = some language then r else { loaded := some language, active := some language }

/-- Read a text with the grammar that is loaded; nothing is read without one. -/
def parse? (r : Reader) (source : String) : Option (Except Nat Python.Tree) :=
  r.loaded.map fun
    | .python => Python.parse? source

/-- Read a text in a language. -/
def readText (r : Reader) (source : String) (language : Language) :
    Option (Except ParseError SourceFile) × Reader :=
  let selected := r.select language
  ((selected.parse? source).map fun
    | .ok tree => .ok ⟨language, tree, source, none⟩
    | .error line => .error (.malformed line), selected)

/-- Read a file; only a text in a known language gets as far as the grammar. -/
def readFile (fs : FileSystem) (r : Reader) (p : Path) :
    Option (Except ParseError SourceFile) × Reader :=
  match Language.ofPath? p with
  | none => (some (.error (.unsupportedExtension ((Language.extensionText? p).getD "none"))), r)
  | some language =>
    match fs.readBytes p with
    | .error e => (some (.error (.unreadable e)), r)
    | .ok bytes =>
      match Text.decode? bytes with
      | none => (some (.error .notText), r)
      | some source =>
        let (answer, next) := r.readText source language
        (answer.map (·.map fun f => { f with path := some p.text }), next)

theorem loaded_select (r : Reader) (language : Language) :
    (r.select language).loaded = some language := by
  unfold select
  split
  · rename_i hactive
    exact r.loaded_eq_active.trans hactive
  · rfl

theorem readText_eq (r : Reader) (source : String) :
    (r.readText source .python).1 = some (SourceFile.ofText source) := by
  have hparse : (r.select .python).parse? source = some (Python.parse? source) := by
    rw [parse?, loaded_select]
    rfl
  rw [readText, hparse, SourceFile.ofText]
  cases Python.parse? source <;> rfl

/-- Whatever was read before, a file is read as if it were the first one. -/
theorem readFile_eq (fs : FileSystem) (r : Reader) (p : Path) :
    (r.readFile fs p).1 = some (SourceFile.load fs p) := by
  unfold readFile SourceFile.load
  cases Language.ofPath? p with
  | none => rfl
  | some language =>
    cases fs.readBytes p with
    | error e => rfl
    | ok bytes =>
      cases htext : Text.decode? bytes with
      | none => simp only [htext]
      | some source =>
        cases language
        simp only [htext, readText_eq, Option.map_some]

end Reader

namespace Scan

/-- The loop of a scan for events that reads every file with the reader the last one left. A file
that is not read in the end counts as passed over, whatever the reason. -/
def eventsWith (fs : FileSystem) :
    List Path → Reader → Report × ScanStats → (Report × ScanStats) × Reader
  | [], r, acc => (acc, r)
  | p :: ps, r, acc =>
    let (answer, next) := r.readFile fs p
    match answer with
    | some result => eventsWith fs ps next (addEvents acc (p, result.map (·.events p.text)))
    | none => eventsWith fs ps next (acc.1, acc.2.addFailure)

theorem eventsWith_eq (fs : FileSystem) (ps : List Path) (r : Reader) (acc : Report × ScanStats) :
    (eventsWith fs ps r acc).1 = (ps.map (fileEvents fs)).foldl addEvents acc := by
  induction ps generalizing r acc with
  | nil => rfl
  | cons p ps ih =>
    have hread := r.readFile_eq fs p
    cases hfile : r.readFile fs p with
    | mk answer next =>
      rw [hfile] at hread
      obtain rfl : answer = some (SourceFile.load fs p) := hread
      rw [eventsWith, hfile]
      exact ih next _

end Scan

end Triage
