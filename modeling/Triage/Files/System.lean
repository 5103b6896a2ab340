import Triage.Files.Path

/-!
# File systems

A file system is a list of entries by their names from the root, together with the working
directory. Every operation says which error it ends in.
-/

namespace Triage.Files

inductive IoError where
  | notFound | alreadyExists | notADirectory | isADirectory | invalidArgument | nameTooLong
  | notEmpty | tooManyLinks
  /-- A directory that the system does not let go. -/
  | busy
  /-- A path with a NUL in it, which the system cannot take. -/
  | nulInPath
  /-- Text was wanted, and the file holds something else. -/
  | invalidText
  /-- A directory that has no parent to be made in. -/
  | rootlessPath
deriving DecidableEq, Repr, Inhabited

/-- The system's words for an error and its number. -/
def IoError.message : IoError → String
  | notFound => "No such file or directory (os error 2)"
  | alreadyExists => "File exists (os error 17)"
  | notADirectory => "Not a directory (os error 20)"
  | isADirectory => "Is a directory (os error 21)"
  | busy => "Device or resource busy (os error 16)"
  | invalidArgument => "Invalid argument (os error 22)"
  | nameTooLong => "File name too long (os error 36)"
  | notEmpty => "Directory not empty (os error 39)"
  | tooManyLinks => "Too many levels of symbolic links (os error 40)"
  | nulInPath => "file name contained an unexpected NUL byte"
  | invalidText => "stream did not contain valid UTF-8"
  | rootlessPath => "failed to create whole tree"

inductive Entry where
  | file (content : ByteArray)
  | directory
  | link (target : Path)
deriving Inhabited

def Entry.isDirectory : Entry → Bool
  | directory => true
  | _ => false

/-- Names from the root downwards. -/
abbrev Location := List Name

structure FileSystem where
  entries : List (Location × Entry) := []
  /-- The working directory. -/
  working : Location := []
deriving Inhabited

/-- The number of bytes that a path cannot have. -/
def pathLimit : Nat := 4096

def nameLimit : Nat := 255

/-- How many links a path may lead through. -/
def linkLimit : Nat := 40

/-- The names to be looked up one after the other; a slash at the end asks for a directory. -/
def Path.steps (p : Path) : List Name :=
  let parts := (splitSlashes p.bytes).filter (· != [])
  if p.bytes.getLast? = some slash ∧ parts ≠ [] then parts ++ [hereName] else parts

namespace FileSystem

def entry? (fs : FileSystem) (place : Location) : Option Entry :=
  if place.isEmpty then some .directory else (fs.entries.find? (·.1 == place)).map (·.2)

/-- Follow `steps` from a location: where they lead, and what is there. The last name alone may be
missing. -/
def follow (fs : FileSystem) (last : Bool) :
    Nat → Location → List Name → Except IoError (Location × Option Entry)
  | _, place, [] => .ok (place, fs.entry? place)
  | links, place, n :: rest =>
    match fs.entry? place with
    | some .directory =>
      if n = hereName then follow fs last links place rest
      else if n = upName then follow fs last links place.dropLast rest
      else if nameLimit < n.length then .error .nameTooLong
      else
        match fs.entry? (place ++ [n]) with
        | none => if rest.isEmpty then .ok (place ++ [n], none) else .error .notFound
        | some (.link target) =>
          if rest.isEmpty && !last then .ok (place ++ [n], some (.link target))
          else
            match links with
            | 0 => .error .tooManyLinks
            | links + 1 =>
              follow fs last links (if target.isAbsolute then [] else place) (target.steps ++ rest)
        | some _ => follow fs last links (place ++ [n]) rest
    | some _ => .error .notADirectory
    | none => .error .notFound
termination_by links _ steps => (links, steps.length)

/-- Where a path leads. Links are followed, the last one only if `last` holds. -/
def locate (fs : FileSystem) (last : Bool) (p : Path) : Except IoError (Location × Option Entry) :=
  if p.bytes.contains 0 then .error .nulInPath
  else if p.isEmpty then .error .notFound
  else if pathLimit ≤ p.bytes.length then .error .nameTooLong
  else follow fs last linkLimit (if p.isAbsolute then [] else fs.working) p.steps

def pathExists (fs : FileSystem) (p : Path) : Bool :=
  match fs.locate true p with
  | .ok (_, some _) => true
  | _ => false

def isDirectory (fs : FileSystem) (p : Path) : Bool :=
  match fs.locate true p with
  | .ok (_, some .directory) => true
  | _ => false

def namesIn (fs : FileSystem) (place : Location) : List (Name × Entry) :=
  fs.entries.filterMap fun (l, e) =>
    if l.length = place.length + 1 ∧ place.isPrefixOf l then (l.getLast?).map (·, e) else none

/-- Put an entry in a place. -/
def put (fs : FileSystem) (place : Location) (e : Entry) : FileSystem :=
  if fs.entries.any (·.1 == place) then
    { fs with entries := fs.entries.map fun x => if x.1 = place then (place, e) else x }
  else { fs with entries := fs.entries ++ [(place, e)] }

/-- Take away a place and everything below it. -/
def prune (fs : FileSystem) (place : Location) : FileSystem :=
  { fs with entries := fs.entries.filter fun x => !place.isPrefixOf x.1 }

def clear (fs : FileSystem) (place : Location) : FileSystem :=
  { fs with entries := fs.entries.filter fun x => !(place.isPrefixOf x.1 && x.1 != place) }

def readBytes (fs : FileSystem) (p : Path) : Except IoError ByteArray := do
  match ← fs.locate true p with
  | (_, some (.file content)) => return content
  | (_, some _) => throw .isADirectory
  | (_, none) => throw .notFound

def readText (fs : FileSystem) (p : Path) : Except IoError String := do
  match Text.decode? (← fs.readBytes p) with
  | some s => return s
  | none => throw .invalidText

/-- The path without slashes at its end. -/
def withoutSlashes (p : Path) : Path :=
  match (p.bytes.reverse.dropWhile (· == slash)).reverse with
  | [] => p
  | bytes => ⟨bytes⟩

/-- Write a file, over one that was there. No file has a name with a slash at its end. -/
def writeBytes (fs : FileSystem) (p : Path) (content : ByteArray) : Except IoError FileSystem := do
  match ← fs.locate true (withoutSlashes p) with
  | (place, some (.file _)) =>
    if withoutSlashes p = p then return fs.put place (.file content) else throw .notADirectory
  | (_, some _) => throw .isADirectory
  | (place, none) =>
    if withoutSlashes p = p then return fs.put place (.file content) else throw .isADirectory

def writeText (fs : FileSystem) (p : Path) (s : String) : Except IoError FileSystem :=
  fs.writeBytes p s.toUTF8

def makeDirectory (fs : FileSystem) (p : Path) : Except IoError FileSystem := do
  match ← fs.locate false (withoutSlashes p) with
  | (_, some _) => throw .alreadyExists
  | (place, none) => return fs.put place .directory

/-- Make a directory and the missing ones above it; `fuel` bounds their number. -/
def makeDirectories (fs : FileSystem) : Nat → Path → Except IoError FileSystem
  | 0, _ => .error .rootlessPath
  | fuel + 1, p =>
    if p.isEmpty then .ok fs
    else
      match fs.makeDirectory p with
      | .ok made => .ok made
      | .error .notFound =>
        match p.parent? with
        | none => .error .rootlessPath
        | some q => do
          let above ← makeDirectories fs fuel q
          match above.makeDirectory p with
          | .ok made => return made
          | .error e => if above.isDirectory p then return above else throw e
      | .error e => if fs.isDirectory p then .ok fs else .error e

def ensureDirectory (fs : FileSystem) (p : Path) : Except IoError FileSystem :=
  fs.makeDirectories (p.bytes.length + 1) p

/-- Remove a directory with everything in it; of a link, remove the link. The root cannot go, and
the working directory not by the name of a dot, but both lose what they hold. -/
def removeTree (p : Path) (fs : FileSystem) : Except IoError Unit × FileSystem :=
  match fs.locate false p with
  | .error e => (.error e, fs)
  | .ok (_, none) => (.error .notFound, fs)
  | .ok (place, some (.link _)) => (.ok (), fs.prune place)
  | .ok (_, some (.file _)) => (.error .notADirectory, fs)
  | .ok (place, some .directory) =>
    if p.steps.getLast? = some hereName ∧ p.bytes.getLast? ≠ some slash then
      (.error .invalidArgument, fs.clear place)
    else if place.isEmpty then (.error .busy, fs.clear place)
    else (.ok (), fs.prune place)

def workingPath (fs : FileSystem) : Path := ⟨slash :: joinSlashes fs.working⟩

end FileSystem

end Triage.Files
