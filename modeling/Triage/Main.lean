import Triage.Command
import Triage.Command.Help

/-!
# The program

The outermost layer. The files that a run may see are named on standard input, one a line; they
are read, the command is carried out on them, and what it wrote and printed is written and printed.
No other machine is reached: a clone fails, and a request is lost.
-/

namespace Triage

open Files

/-- Surroundings without other machines. Nothing is removed for the sake of a clone. -/
def offline : Surroundings Unit where
  remove _ fs := (.ok (), fs)
  clone _ _ fs := (false, fs)
  transport := ⟨fun _ => true, fun _ _ => (.lost, ())⟩

/-- The names from the root to an absolute path. -/
def locationOf (p : Path) : Location := (splitSlashes p.bytes).filter (· != [])

/-- The file system with one more file. -/
def withFile (fs : FileSystem) (p : Path) (content : ByteArray) : FileSystem :=
  match Report.withParent fs p with
  | .error _ => fs
  | .ok made => ((made.writeBytes p content).toOption).getD fs

/-- Files where settings may be. -/
def settingFiles (working : Path) (named : Option Path) : List Path :=
  match named with
  | some p => [p, p.join configFile]
  | none => (Settings.places working).map (·.join configFile)

def readInto (fs : FileSystem) (p : Path) : IO FileSystem := do
  try
    return withFile fs p (← IO.FS.readBinFile p.text)
  catch _ => return fs

partial def inputLines (input : IO.FS.Stream) : IO (List String) := do
  let line ← input.getLine
  if line.isEmpty then return []
  return (line.dropEndWhile (· == '\n')).toString :: (← inputLines input)

/-- Do on this machine what a run did. -/
def perform (fs : FileSystem) (e : Effect) : IO Unit := do
  match e with
  | .makeDirectory p => IO.FS.createDirAll p.text
  | .writeFile p =>
    match fs.readBytes p with
    | .ok content => IO.FS.writeBinFile p.text content
    | .error _ => return ()
  | .print line => IO.println line
  | _ => return ()

/-- Carry out a command. -/
def execute (i : Invocation) : IO UInt32 := do
  let working := Path.ofString ((← IO.getEnv "PWD").getD "/")
  let place := locationOf working
  let mut fs : FileSystem := ⟨[], []⟩
  fs := { (fs.ensureDirectory working).toOption.getD fs with working := place }
  for p in settingFiles working i.config do
    fs ← readInto fs p
  for line in ← inputLines (← IO.getStdin) do
    fs ← readInto fs (.ofString line)
  let (ending, w) := run offline "today" i ⟨fs, (), []⟩
  for e in w.effects do
    perform w.files e
  match ending with
  | .failed message => IO.eprintln ("Error: " ++ message)
  | _ => pure ()
  return UInt32.ofNat ending.status

def environment : IO Environment := do
  let mut e : Environment := []
  for o in ValueOption.all do
    match o.environmentName? with
    | none => continue
    | some name =>
      match ← IO.getEnv name with
      | some value => e := (name, value) :: e
      | none => continue
  return e

end Triage

def main (arguments : List String) : IO UInt32 := do
  let e ← Triage.environment
  match Triage.Arguments.meaning e arguments with
  | .version =>
    IO.print Triage.versionText
    return 0
  | .help command =>
    IO.print (Triage.helpText e command)
    return 0
  | .misuse =>
    IO.eprintln "For more information, try '--help'."
    return 2
  | .run i => Triage.execute i
