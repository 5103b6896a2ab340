import Triage.Files.Walk
import Triage.Report
import Triage.SourceFile
import Triage.StructureReport

/-!
# Scans

A scan reads every source file below a root, one at a time and in the order of the walk. A file
that cannot be read is passed over and leaves no events behind.
-/

namespace Triage

open Files

structure ScanOptions where
  /-- Extensions of the files to be read, without the dot. -/
  extensions : List String := ["py"]
  /-- Pass over hidden and ignored files. -/
  respectIgnoreFiles : Bool := false
  rule : RouteRule := .flask
deriving DecidableEq, Repr

structure ScanStats where
  /-- Files found. -/
  seen : Nat := 0
  /-- Files read. -/
  analyzed : Nat := 0
  /-- Files passed over. -/
  skipped : Nat := 0
  /-- Events or records taken. -/
  records : Nat := 0
deriving DecidableEq, Repr

namespace ScanStats

def addFile (s : ScanStats) (records : Nat) : ScanStats :=
  { s with seen := s.seen + 1, analyzed := s.analyzed + 1, records := s.records + records }

/-- One more file that was passed over. -/
def addFailure (s : ScanStats) : ScanStats :=
  { s with seen := s.seen + 1, skipped := s.skipped + 1 }

end ScanStats

/-- The root of a scan is missing or no directory. -/
structure RootNotFound where
  root : Path
deriving DecidableEq, Repr

def RootNotFound.message (e : RootNotFound) : String :=
  "Scan root does not exist or is not a directory: " ++ e.root.text

namespace Scan

abbrev Outcome (α : Type) := Path × Except ParseError α

def addEvents (acc : Report × ScanStats) (o : Outcome (List Event)) : Report × ScanStats :=
  match o.2 with
  | .ok es => (acc.1.extend es, acc.2.addFile es.length)
  | .error _ => (acc.1, acc.2.addFailure)

def gatherEvents (os : List (Outcome (List Event))) : Report × ScanStats :=
  os.foldl addEvents ({}, {})

/-- The structure report after one more file; one that could not be read has an empty record. -/
def addRecord (acc : StructureReport × ScanStats) (o : Outcome FileRecord) :
    StructureReport × ScanStats :=
  match o.2 with
  | .ok r => (acc.1.insert r, acc.2.addFile r.count)
  | .error _ => (acc.1.insert (.empty o.1.text), acc.2.addFailure)

/-- The structure report of files in walk order. -/
def gatherStructure (os : List (Outcome FileRecord)) : StructureReport × ScanStats :=
  os.foldl addRecord ({}, {})

/-- Whether a file has one of the extensions, in any case of ASCII letters. -/
def isSelected (extensions : List String) (p : Path) : Bool :=
  match Language.extensionText? p with
  | some e => extensions.any fun wanted => Text.lowerAscii wanted == Text.lowerAscii e
  | none => false

/-- The files that a scan reads. -/
def sourceFiles (options : ScanOptions) (fs : FileSystem) (root : Path) :
    Except RootNotFound (List Path) :=
  match walk? fs root options.respectIgnoreFiles with
  | some paths => .ok (paths.filter (isSelected options.extensions))
  | none => .error ⟨root⟩

def fileEvents (fs : FileSystem) (p : Path) : Outcome (List Event) :=
  (p, (SourceFile.load fs p).map (·.events p.text))

def fileRecord (options : ScanOptions) (fs : FileSystem) (p : Path) : Outcome FileRecord :=
  (p, (SourceFile.load fs p).map (·.record p.text options.rule))

/-- The events of every source file below a root. -/
def collectEvents (options : ScanOptions) (fs : FileSystem) (root : Path) :
    Except RootNotFound (Report × ScanStats) := do
  return gatherEvents ((← sourceFiles options fs root).map (fileEvents fs))

/-- The records of every source file below a root. -/
def collectStructure (options : ScanOptions) (fs : FileSystem) (root : Path) :
    Except RootNotFound (StructureReport × ScanStats) := do
  return gatherStructure ((← sourceFiles options fs root).map (fileRecord options fs))

end Scan

end Triage
