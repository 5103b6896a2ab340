import Triage.Settings
import Triage.Toml.Reader

/-!
# Settings as TOML

A section is a table, or an array of its fields in order. Whatever is missing keeps its standard
value, and unknown names do not matter.
-/

namespace Triage

open Files Number

namespace Toml.Value

/-- The values of the fields of a section, as far as they are there. -/
def fields? (names : List String) : Value → Option (List (Option Value))
  | table _ ms => some (names.map fun n => ms.lookup n)
  | array vs => some ((List.range names.length).map fun i => vs[i]?)
  | tables ts => some ((List.range names.length).map fun i => (ts[i]?).map (table .header))
  | moment => some (names.map fun _ => none)
  | _ => none

def text? : Value → Option String
  | string s => some s
  | _ => none

def path? (v : Value) : Option Path := v.text?.map .ofString

def flag? : Value → Option Bool
  | boolean b => some b
  | _ => none

def natBelow? (limit : Nat) : Value → Option Nat
  | integer (.ofNat n) => if n < limit then some n else none
  | _ => none

def word? (v : Value) : Option UInt64 := (v.natBelow? UInt64.size).map UInt64.ofNat

def halfWord? (v : Value) : Option UInt32 := (v.natBelow? UInt32.size).map UInt32.ofNat

/-- A number of 32 bits; integers are rounded once. -/
def single? : Value → Option Single
  | integer n => some (.ofRatio (n < 0) n.natAbs 1)
  | float x => some x.toSingle
  | _ => none

def texts? : Value → Option (List String)
  | array vs => vs.mapM text?
  | _ => none

end Toml.Value

open Toml (Value)

/-- The value of a field, or its standard value. -/
def orStandard {α : Type} (read : Value → Option α) (standard : α) : Option Value → Option α
  | some v => read v
  | none => some standard

/-- The value of a field without a standard value. -/
def orNothing {α : Type} (read : Value → Option α) : Option Value → Option (Option α)
  | some v => (read v).map some
  | none => some none

def RepositorySection.ofValue? (v : Value) : Option RepositorySection := do
  let d : RepositorySection := {}
  match ← v.fields? ["url", "download_path"] with
  | [url, path] =>
    return ⟨← orNothing Value.text? url, ← orStandard Value.path? d.downloadPath path⟩
  | _ => none

def OpenAiSection.ofValue? (v : Value) : Option OpenAiSection := do
  let d : OpenAiSection := {}
  match ← v.fields? ["api_key", "base_url", "model", "timeout_secs", "max_retries", "max_tokens",
    "temperature"] with
  | [key, url, model, timeout, retries, tokens, temperature] =>
    return ⟨← orNothing Value.text? key, ← orNothing Value.text? url,
      ← orStandard Value.text? d.model model, ← orStandard Value.word? d.timeoutSeconds timeout,
      ← orStandard Value.halfWord? d.maxRetries retries, ← orNothing Value.halfWord? tokens,
      ← orNothing Value.single? temperature⟩
  | _ => none

def ScanSection.ofValue? (v : Value) : Option ScanSection := do
  let d : ScanSection := {}
  match ← v.fields? ["extensions", "respect_gitignore", "route_attributes"] with
  | [extensions, respect, routes] =>
    return ⟨← orStandard Value.texts? d.extensions extensions,
      ← orStandard Value.flag? d.respectGitignore respect,
      ← orStandard Value.texts? d.routeAttributes routes⟩
  | _ => none

def ReportSection.ofValue? (v : Value) : Option ReportSection := do
  let d : ReportSection := {}
  match ← v.fields? ["path"] with
  | [path] => return ⟨← orStandard Value.path? d.path path⟩
  | _ => none

def LoggingSection.ofValue? (v : Value) : Option LoggingSection := do
  match ← v.fields? ["dir"] with
  | [dir] => return ⟨← orNothing Value.path? dir⟩
  | _ => none

namespace Settings

def ofMembers? (ms : Toml.Members) : Option Settings := do
  return ⟨← orStandard RepositorySection.ofValue? {} (ms.lookup "repository"),
    ← orStandard OpenAiSection.ofValue? {} (ms.lookup "openai"),
    ← orStandard ScanSection.ofValue? {} (ms.lookup "scan"),
    ← orStandard ReportSection.ofValue? {} (ms.lookup "report"),
    ← orStandard LoggingSection.ofValue? {} (ms.lookup "logging")⟩

/-- The settings that a text holds. -/
def ofText? (s : String) : Option Settings := do ofMembers? (← Toml.read? s)

end Settings

end Triage
