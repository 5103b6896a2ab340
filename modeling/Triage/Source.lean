import Triage.Settings

/-!
# Where the sources come from

What the command line says goes before the settings, and a blank text counts as nothing said.
-/

namespace Triage

open Files

/-- What the command line and the environment say about the sources and the service. -/
structure SourceArguments where
  repoUrl : Option String := none
  apiKey : Option String := none
  downloadPath : Option Path := none
  localPath : Option Path := none
  keep : Bool := false
deriving DecidableEq, Repr, Inhabited

/-- Where the sources come from. -/
inductive Source where
  | directory (path : Path)
  /-- A repository to be cloned into `path`. -/
  | remote (url : String) (path : Path) (keep : Bool)
deriving DecidableEq, Repr, Inhabited

/-- What nobody said. -/
inductive SourceError where
  | noUrl
  | noApiKey
deriving DecidableEq, Repr, Inhabited

def SourceError.message : SourceError → String
  | noUrl => "Repository URL must be set with --repo-url, the REPO_URL environment variable, " ++
      "or [repository] url"
  | noApiKey => "OpenAI API key must be set with --api-key, the OPENAI_API_KEY environment " ++
      "variable, or [openai] api_key"

namespace SourceArguments

variable (a : SourceArguments) (s : Settings)

def resolvedUrl? : Option String :=
  Text.nonBlank? a.repoUrl <|> Text.nonBlank? s.repository.url

def resolvedKey? : Option String :=
  Text.nonBlank? a.apiKey <|> Text.nonBlank? s.openai.apiKey

def resolvedPath : Path := a.downloadPath.getD s.repository.downloadPath

/-- The source; a local directory goes before a repository. -/
def source : Except SourceError Source :=
  match a.localPath, a.resolvedUrl? s with
  | some path, _ => .ok (.directory path)
  | none, some url => .ok (.remote url (a.resolvedPath s) a.keep)
  | none, none => .error .noUrl

def resolve : Except SourceError (Source × String) := do
  let source ← a.source s
  match a.resolvedKey? s with
  | some key => .ok (source, key)
  | none => .error .noApiKey

end SourceArguments

end Triage
