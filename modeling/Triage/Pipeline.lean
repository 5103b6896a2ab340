import Triage.Prompt
import Triage.Report.Storage
import Triage.Settings
import Triage.World

/-!
# From sources to an assessment

A scan writes its report, reads it back and asks for one assessment of it. Nothing is asked before
the report was read back.
-/

namespace Triage

open Files Service

/-- The step that went wrong. -/
inductive PipelineError where
  | notScanned (root : Path)
  | notWritten (path : Path)
  | notRead (path : Path)
  | noAssessment (cause : Failure)
deriving DecidableEq, Repr, Inhabited

def PipelineError.message : PipelineError → String
  | notScanned root => "Failed to scan " ++ root.text
  | notWritten path => "Failed to write report to " ++ path.text
  | notRead path => "Failed to read report from " ++ path.text
  | noAssessment _ => "Analysis request failed"

namespace Pipeline

variable {σ τ : Type}

def storeReport (r : Report) (path : Path) (w : World σ) : Except IoError Unit × World σ :=
  let (result, files) := r.store path w.files
  let w := match path.parent? with
    | some parent => w.note (.makeDirectory parent)
    | none => w
  (result, { w with files := files }.note (.writeFile path))

/-- Scan the sources below a root, and give their report as it can be read back from its file. -/
def writeReport (root : Path) (s : Settings) (w : World σ) :
    Except PipelineError Report × World σ :=
  match Scan.collectEvents s.scanOptions w.files root with
  | .error _ => (.error (.notScanned root), w)
  | .ok (report, _) =>
    match storeReport report s.report.path w with
    | (.error _, w) => (.error (.notWritten s.report.path), w)
    | (.ok _, w) =>
      match Report.load w.files s.report.path with
      | .ok report => (.ok report, w)
      | .error _ => (.error (.notRead s.report.path), w)

/-- Ask for an assessment of a report. -/
def assess (r : Report) (b : Backend τ) (s : Settings) (t : τ) :
    Option (Except PipelineError Assessment) × τ :=
  let (o, t) := b.answer (s.request (promptOf r.promptText)) t
  (o.map (·.mapError .noAssessment), t)

/-- A whole scan. The backend sees the world next to what it remembers itself. -/
def runScan (root : Path) (s : Settings) (b : Backend (World σ × τ)) (w : World σ) (t : τ) :
    Option (Except PipelineError Assessment) × World σ × τ :=
  match writeReport root s w with
  | (.error e, w) => (some (.error e), w, t)
  | (.ok report, w) => assess report b s (w, t)

def structureOf (root : Path) (s : Settings) (w : World σ) :
    Except PipelineError StructureReport :=
  match Scan.collectStructure s.scanOptions w.files root with
  | .ok (report, _) => .ok report
  | .error _ => .error (.notScanned root)

end Pipeline

/-- A backend that leaves the world alone. -/
def Service.Backend.beside {σ τ : Type} (b : Backend τ) : Backend (World σ × τ) where
  name := b.name
  answer r s :=
    let (o, t) := b.answer r s.2
    (o, s.1, t)

end Triage
