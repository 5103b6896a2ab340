import Triage.Files.Path
import Triage.Scan
import Triage.Service.Chat
import Triage.Text.Blank

/-!
# Settings

The settings of a configuration file, each with a value for when it is not there, and what follows
from them for a scan and a request.
-/

namespace Triage

open Files Number Service

/-- The directory of this program's data. -/
def dataDirectory : Path := .ofString ".vigil"

def configFile : Path := .ofString "config.toml"

structure RepositorySection where
  url : Option String := none
  downloadPath : Path := .ofString "./cloned_repo"
deriving DecidableEq, Repr, Inhabited

structure OpenAiSection where
  apiKey : Option String := none
  baseUrl : Option String := none
  model : String := "gpt-4o"
  timeoutSeconds : UInt64 := 300
  maxRetries : UInt32 := 0
  maxTokens : Option UInt32 := none
  temperature : Option Single := none
deriving DecidableEq, Repr, Inhabited

structure ScanSection where
  extensions : List String := ["py"]
  respectGitignore : Bool := false
  routeAttributes : List String := ["route"]
deriving DecidableEq, Repr, Inhabited

structure ReportSection where
  path : Path := .ofString "outputs/analysis_report.json"
deriving DecidableEq, Repr, Inhabited

structure LoggingSection where
  dir : Option Path := none
deriving DecidableEq, Repr, Inhabited

structure Settings where
  repository : RepositorySection := {}
  openai : OpenAiSection := {}
  scan : ScanSection := {}
  report : ReportSection := {}
  logging : LoggingSection := {}
deriving DecidableEq, Repr, Inhabited

structure SettingFault where
  field : String
  message : String
deriving DecidableEq, Repr, Inhabited

def SettingFault.text (f : SettingFault) : String := f.field ++ ": " ++ f.message

namespace Settings

/-- The log directory, which is relative to the directory of the configuration. -/
def logDirectory? (s : Settings) (configDirectory : Option Path) : Option Path :=
  s.logging.dir.map fun dir => (configDirectory.getD dataDirectory).join dir

def scanOptions (s : Settings) : ScanOptions where
  extensions := s.scan.extensions
  respectIgnoreFiles := s.scan.respectGitignore
  rule := ⟨"configured", s.scan.routeAttributes⟩

/-- How the service is reached with the given key. -/
def serviceSettings (s : Settings) (key : String) : ServiceSettings :=
  let d : ServiceSettings := { apiKey := key }
  { d with
    baseUrl := s.openai.baseUrl.getD d.baseUrl
    model := s.openai.model
    timeout := .ofSeconds s.openai.timeoutSeconds
    maxRetries := s.openai.maxRetries }

def request (s : Settings) (prompt : String) : Request :=
  ⟨prompt, some s.openai.model, s.openai.maxTokens, s.openai.temperature⟩

/-- What is wrong with the settings. -/
def faults (s : Settings) : List SettingFault :=
  (if Text.isBlank s.openai.model then [⟨"openai.model", "Model cannot be empty."⟩] else []) ++
  (if s.scan.extensions.isEmpty then
    [⟨"scan.extensions", "At least one file extension is required."⟩] else []) ++
  (if s.scan.routeAttributes.isEmpty then
    [⟨"scan.route_attributes", "At least one route attribute is required."⟩] else [])

end Settings

end Triage
