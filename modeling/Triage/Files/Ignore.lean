import Triage.Files.Glob
import Triage.Files.System
import Triage.Text.Blank

/-!
# Ignore files

Each line of an ignore file is a rule about the paths below the file's directory; the last rule
that fits decides. Rules of a `.ignore` file go before those of a `.gitignore` file, and these
before those of a repository's exclude file; within each kind the deepest file that decides wins.
-/

namespace Triage.Files

inductive Verdict where
  | silent | ignored | kept
deriving DecidableEq, Repr, Inhabited

/-- The first verdict, unless it says nothing. -/
def Verdict.orElse : Verdict → Verdict → Verdict
  | silent, v => v
  | v, _ => v

structure IgnoreRule where
  pattern : Glob.Pattern
  keeps : Bool
  directoriesOnly : Bool

namespace IgnoreRule

/-- The text without a slash at its end, escaped or not, and whether there was one. -/
def withoutFinalSlash (s : String) : String × Bool :=
  match s.toList.reverse with
  | '/' :: '\\' :: cs => (String.ofList cs.reverse, true)
  | '/' :: cs => (String.ofList cs.reverse, true)
  | _ => (s, false)

/-- The glob for the text of a rule: one without a slash may fit at any depth, and what ends in two
stars fits what is in a directory but not the directory. -/
def globText (anchored : Bool) (s : String) : String :=
  let placed :=
    if anchored || s.toList.contains '/' || s.startsWith "**/" || s == "**" then s else "**/" ++ s
  if placed.endsWith "/**" then placed ++ "/*" else placed

/-- The rule of a line, if it holds one. -/
def ofLine? (line : String) : Option IgnoreRule := do
  if line.startsWith "#" then none
  let line := if line.endsWith "\\ " then line else Text.trimEnd line
  if line.isEmpty then none
  let (keeps, anchored, body) : Bool × Bool × List Char := match line.toList with
    | '\\' :: '!' :: cs => (false, false, '!' :: cs)
    | '\\' :: '#' :: cs => (false, false, '#' :: cs)
    | '!' :: '/' :: cs => (true, true, cs)
    | '!' :: cs => (true, false, cs)
    | '/' :: cs => (false, true, cs)
    | cs => (false, false, cs)
  let (text, directoriesOnly) := withoutFinalSlash (String.ofList body)
  let pattern ← Glob.parse? (globText anchored text)
  return ⟨pattern, keeps, directoriesOnly⟩

def fits (r : IgnoreRule) (path : List UInt8) (isDirectory : Bool) : Bool :=
  (!r.directoriesOnly || isDirectory) && r.pattern.matchesPath path

end IgnoreRule

/-- The lines of a file, without their ends. -/
def linesOf (s : String) : List String :=
  (s.splitOn "\n").map fun line => if line.endsWith "\r" then (line.dropEnd 1).toString else line

/-- The rules of an ignore file; the text may begin with a byte order mark. -/
def ignoreRules (s : String) : List IgnoreRule :=
  let text := match s.toList with
    | '\ufeff' :: cs => String.ofList (cs.dropWhile (· == '\ufeff'))
    | _ => s
  (linesOf text).filterMap IgnoreRule.ofLine?

def verdictOf (rules : List IgnoreRule) (path : List UInt8) (isDirectory : Bool) : Verdict :=
  match rules.reverse.find? (·.fits path isDirectory) with
  | some r => if r.keeps then .kept else .ignored
  | none => .silent

/-- The rules that a directory brings in. -/
structure IgnoreLevel where
  place : Location
  own : List IgnoreRule
  shared : List IgnoreRule
  excluded : List IgnoreRule
  /-- Whether the directory is the top of a repository. -/
  isRepository : Bool

namespace IgnoreLevel

def rulesIn (fs : FileSystem) (place : Location) (names : List String) : List IgnoreRule :=
  match fs.follow true linkLimit place (names.map nameOf) with
  | .ok (_, some (.file content)) => ignoreRules (validLines content)
  | _ => []
where
  /-- The text of a file up to its first line that is no UTF-8. -/
  validLines (content : ByteArray) : String :=
    match Text.decode? content with
    | some s => s
    | none =>
      let lines := (splitLines content.toList).map fun l => Text.decode? ⟨l.toArray⟩
      "\n".intercalate ((lines.takeWhile (·.isSome)).filterMap id)
  /-- The parts of a byte string between line feeds. -/
  splitLines (bytes : List UInt8) : List (List UInt8) :=
    bytes.foldr (fun b acc => if b = 10 then [] :: acc else
      match acc with
      | l :: ls => (b :: l) :: ls
      | [] => [[b]]) [[]]

/-- What the directory at a place brings in. -/
def ofDirectory (fs : FileSystem) (place : Location) : IgnoreLevel where
  place := place
  own := rulesIn fs place [".ignore"]
  shared := rulesIn fs place [".gitignore"]
  excluded := rulesIn fs place [".git", "info", "exclude"]
  isRepository :=
    match fs.follow true linkLimit place [nameOf ".git"] with
    | .ok (_, some _) => true
    | _ => false

/-- What one kind of a level's rules says about the entry at a place. -/
def verdict (l : IgnoreLevel) (rules : List IgnoreRule) (place : Location) (isDirectory : Bool) :
    Verdict :=
  verdictOf rules (joinSlashes (place.drop l.place.length)) isDirectory

end IgnoreLevel

/-- The levels of a location, innermost first. -/
def levelsAbove (fs : FileSystem) (place : Location) : List IgnoreLevel :=
  ((List.range place.length).map fun n => IgnoreLevel.ofDirectory fs (place.take n)).reverse

/-- The levels up to the top of the innermost repository. -/
def withinRepository : List IgnoreLevel → List IgnoreLevel
  | [] => []
  | l :: ls => if l.isRepository then [l] else l :: withinRepository ls

def firstVerdict (vs : List Verdict) : Verdict := vs.foldr Verdict.orElse .silent

def ignoreVerdict (levels : List IgnoreLevel) (place : Location) (isDirectory : Bool) : Verdict :=
  let own := firstVerdict (levels.map fun l => l.verdict l.own place isDirectory)
  let within := if levels.any (·.isRepository) then withinRepository levels else []
  let shared := firstVerdict (within.map fun l => l.verdict l.shared place isDirectory)
  let excluded := firstVerdict (within.map fun l => l.verdict l.excluded place isDirectory)
  (own.orElse shared).orElse excluded

/-- Whether an entry is passed over: because an ignore file says so, or because it is hidden and no
ignore file keeps it. -/
def isPassedOver (levels : List IgnoreLevel) (place : Location) (isDirectory : Bool) : Bool :=
  match ignoreVerdict levels place isDirectory with
  | .ignored => true
  | .kept => false
  | .silent => ((place.getLast?.getD []).head? == some dot)

end Triage.Files
