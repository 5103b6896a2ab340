import Triage.Files.System
import Triage.Settings.Codec

/-!
# Finding the settings

Settings are looked for in a directory and then in those above it, and the nearest file counts,
also when it cannot be read.
-/

namespace Triage

open Files

/-- Why a configuration cannot be used. -/
inductive ConfigError where
  | unreadable (file : Path)
  | malformed (file : Path)
deriving DecidableEq, Repr, Inhabited

def ConfigError.message : ConfigError → String
  | unreadable file => "Failed to read config file: " ++ file.text
  | malformed file => "Failed to parse config file: " ++ file.text

namespace Settings

def load (fs : FileSystem) (file : Path) : Except ConfigError Settings :=
  match fs.readText file with
  | .error _ => .error (.unreadable file)
  | .ok text =>
    match ofText? text with
    | some s => .ok s
    | none => .error (.malformed file)

/-- Where settings may be, nearest place first. -/
def places (start : Path) : List Path := start.ancestors.map (·.join dataDirectory)

/-- The nearest settings, and the directory that they are in. -/
def find (fs : FileSystem) (start : Path) : Except ConfigError (Option (Settings × Path)) :=
  match (places start).find? fun place => fs.pathExists (place.join configFile) with
  | none => .ok none
  | some place => (load fs (place.join configFile)).map fun s => some (s, place)

/-- The settings in a file that was named, or in a directory that was; otherwise the nearest ones
to the working directory, or else the standard ones. They come with the directory they are in. -/
def locate (fs : FileSystem) (named : Option Path) :
    Except ConfigError (Settings × Option Path) :=
  match named with
  | some path =>
    let file := if fs.isDirectory path then path.join configFile else path
    (load fs file).map fun s => (s, some (file.parent?.getD path))
  | none =>
    (find fs fs.workingPath).map fun
      | some (s, place) => (s, some place)
      | none => ({}, none)

end Settings

end Triage
