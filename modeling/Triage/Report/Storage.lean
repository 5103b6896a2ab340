import Triage.Files.System
import Triage.Report

/-!
# Reports on disk

Writing makes the directories above the file as well.
-/

namespace Triage

open Files

inductive ReportError where
  | file (cause : IoError)
  /-- The text holds no report. -/
  | unreadable
deriving DecidableEq, Repr, Inhabited

namespace Report

/-- The file system with the directory of a file in it. -/
def withParent (fs : FileSystem) (p : Path) : Except IoError FileSystem :=
  match p.parent? with
  | some parent => fs.ensureDirectory parent
  | none => .ok fs

/-- Write a report, and give the file system after it, also when that failed. -/
def store (r : Report) (p : Path) (fs : FileSystem) : Except IoError Unit × FileSystem :=
  match withParent fs p with
  | .error e => (.error e, fs)
  | .ok fs =>
    match fs.writeText p r.fileText with
    | .error e => (.error e, fs)
    | .ok fs => (.ok (), fs)

def load (fs : FileSystem) (p : Path) : Except ReportError Report :=
  match fs.readText p with
  | .error e => .error (.file e)
  | .ok text =>
    match ofText? text with
    | some r => .ok r
    | none => .error .unreadable

end Report

end Triage
