import Triage.Checkout
import Triage.Command.Arguments
import Triage.Pipeline
import Triage.Settings.Discovery
import Triage.Settings.Template

/-!
# Commands

A command first makes sure of everything it can without touching anything. Only then does it begin
to write, to clone and to ask.
-/

namespace Triage

open Files Service

inductive Ending where
  | done
  | failed (message : String)
  /-- A pause between tries grew out of reach. -/
  | aborted
deriving DecidableEq, Repr, Inhabited

/-- The number that the system is told. -/
def Ending.status : Ending → Nat
  | done => 0
  | failed _ => 1
  | aborted => 101

/-- The settings that are to be used, and the directory they are in. -/
def settingsFor (fs : FileSystem) (named : Option Path) :
    Except String (Settings × Option Path) :=
  match Settings.locate fs named with
  | .error e => .error e.message
  | .ok (s, place) =>
    match s.faults with
    | [] => .ok (s, place)
    | faults =>
      .error ("Configuration has " ++ toString faults.length ++ " error(s): " ++
        "; ".intercalate (faults.map SettingFault.text))

/-- Everything a scan needs to begin. -/
structure ScanPlan (σ : Type) where
  settings : Settings
  /-- The directory of the configuration. -/
  place : Option Path
  source : Source
  backend : Backend (World σ × List Exchange)

structure StructurePlan where
  settings : Settings
  place : Option Path
  source : Source

section

variable {σ : Type}

/-- The service as it is seen from within the world. -/
def serviceBackend (around : Surroundings σ) (s : ServiceSettings) :
    Except Failure (Backend (World σ × List Exchange)) := do
  let service ← Chat.backend s (World.transport around)
  (around.client s.timeout).mapError Chat.noClient
  return service.logging

/-- The plan of a scan; nothing is done for it. -/
def planScan (around : Surroundings σ) (fs : FileSystem) (i : Invocation) :
    Except String (ScanPlan σ) := do
  let (s, place) ← settingsFor fs i.config
  let (source, key) ← (i.source.resolve s).mapError SourceError.message
  let backend ← (serviceBackend around (s.serviceSettings key)).mapError Failure.message
  return ⟨s, place, source, backend⟩

def planStructure (fs : FileSystem) (i : Invocation) : Except String StructurePlan := do
  let (s, place) ← settingsFor fs i.config
  let source ← (i.source.source s).mapError SourceError.message
  return ⟨s, place, source⟩

/-- Begin the log file of the day, if there is to be one. A directory that cannot be made is no
reason to stop. -/
def startLog (s : Settings) (place : Option Path) (day : String) (w : World σ) : World σ :=
  match s.logDirectory? place with
  | none => w
  | some dir =>
    match w.ensureDirectory dir with
    | (.error _, w) => w
    | (.ok _, w) =>
      let file := dir.join (.ofString ("vigil.log." ++ day))
      if w.files.pathExists file then w.note (.writeFile file) else (w.writeText file "").2

def endingOf (r : Option (Except PipelineError Assessment)) (w : World σ) : Ending × World σ :=
  match r with
  | none => (.aborted, w)
  | some (.error e) => (.failed e.message, w)
  | some (.ok a) => (.done, w.print a.text)

/-- Scan the sources, and print the assessment after the checkout has ended. -/
def runScanPlan (around : Surroundings σ) (day : String) (p : ScanPlan σ) (w : World σ) :
    Ending × World σ :=
  match Checkout.ofSource around p.source (startLog p.settings p.place day w) with
  | (.error e, w) => (.failed e.message, w)
  | (.ok c, w) =>
    let (r, w, _) := Pipeline.runScan c.path p.settings p.backend w []
    endingOf r (c.release around w)

/-- Print the structure of the sources after the checkout has ended. -/
def runStructurePlan (around : Surroundings σ) (day : String) (p : StructurePlan) (w : World σ) :
    Ending × World σ :=
  match Checkout.ofSource around p.source (startLog p.settings p.place day w) with
  | (.error e, w) => (.failed e.message, w)
  | (.ok c, w) =>
    let r := Pipeline.structureOf c.path p.settings w
    let w := c.release around w
    match r with
    | .error e => (.failed e.message, w)
    | .ok report => (.done, w.print report.promptText)

/-- Write a first configuration; one that is there already only goes when that is wanted. -/
def runInit (force : Bool) (w : World σ) : Ending × World σ :=
  let file := dataDirectory.join configFile
  if w.files.pathExists file && !force then
    (.failed ".vigil/config.toml already exists. Use --force to overwrite.", w)
  else
    let (made, w) :=
      if w.files.pathExists dataDirectory then (.ok (), w) else w.ensureDirectory dataDirectory
    match made with
    | .error e => (.failed e.message, w)
    | .ok _ =>
      match w.writeText file template with
      | (.error e, w) => (.failed e.message, w)
      | (.ok _, w) => (.done, w)

/-- Carry out a command on the given day. -/
def run (around : Surroundings σ) (day : String) (i : Invocation) (w : World σ) :
    Ending × World σ :=
  match i.command with
  | .scan =>
    match planScan around w.files i with
    | .error message => (.failed message, w)
    | .ok p => runScanPlan around day p w
  | .structureReport =>
    match planStructure w.files i with
    | .error message => (.failed message, w)
    | .ok p => runStructurePlan around day p w
  | .init force => runInit force w

end

end Triage
