import Triage.Files.System
import Triage.Language
import Triage.Python.Extract
import Triage.Python.Source

/-!
# Source files

A file is read as source in four steps, and the first one that fails decides: its extension, its
bytes, its text, its syntax.
-/

namespace Triage

open Files

inductive ParseError where
  | unsupportedExtension (extension : String)
  | unreadable (cause : IoError)
  | notText
  | malformed (line : Nat)
deriving DecidableEq, Repr, Inhabited

def ParseError.message : ParseError → String
  | unsupportedExtension extension => "Unsupported file extension: " ++ extension
  | unreadable cause => "Failed to read file: " ++ cause.message
  | notText => "File is not valid UTF-8"
  | malformed line => "Syntax error at line " ++ toString line

/-- A file with its tree. -/
structure SourceFile where
  language : Language
  tree : Python.Tree
  source : String
  path : Option String := none

namespace SourceFile

def ofText (source : String) : Except ParseError SourceFile :=
  match Python.parse? source with
  | .ok tree => .ok ⟨.python, tree, source, none⟩
  | .error line => .error (.malformed line)

/-- Read a file. -/
def load (fs : FileSystem) (p : Path) : Except ParseError SourceFile :=
  match Language.ofPath? p with
  | none => .error (.unsupportedExtension ((Language.extensionText? p).getD "none"))
  | some _ =>
    match fs.readBytes p with
    | .error e => .error (.unreadable e)
    | .ok bytes =>
      match Text.decode? bytes with
      | none => .error .notText
      | some source => (ofText source).map fun f => { f with path := some p.text }

def events (f : SourceFile) (file : String) : List Event := f.tree.events f.source file

def record (f : SourceFile) (file : String) (rule : RouteRule) : FileRecord :=
  f.tree.record f.source file rule

end SourceFile

end Triage
