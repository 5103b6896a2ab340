import Triage.Files.System
import Triage.Service.Chat

/-!
# The world around a run

A run changes files and talks to other machines. Everything that it does is noted down in order,
also what fails.
-/

namespace Triage

open Files Service

/-- Something that a run does. -/
inductive Effect where
  | makeDirectory (p : Path)
  | writeFile (p : Path)
  | removeDirectory (p : Path)
  | clone (url : String) (p : Path)
  | send (p : Post)
  /-- A line of the result. -/
  | print (line : String)
deriving DecidableEq, Repr, Inhabited

/-- The files, what there is beyond this machine, and what was done so far. -/
structure World (σ : Type) where
  files : FileSystem
  outside : σ
  effects : List Effect := []
deriving Inhabited

/-- How the world answers to what is asked of it. -/
structure Surroundings (σ : Type) where
  /-- Remove a directory, as far as possible. -/
  remove : Path → FileSystem → Except IoError Unit × FileSystem := FileSystem.removeTree
  /-- Clone a repository into a place, and say whether that worked. -/
  clone : String → Path → FileSystem → Bool × FileSystem
  transport : Transport σ
  /-- Whether there can be a client that waits so long for an answer, or why there is none. -/
  client : Duration → Except String Unit := fun _ => .ok ()

namespace World

variable {σ : Type}

def note (w : World σ) (e : Effect) : World σ := { w with effects := w.effects ++ [e] }

def remove (around : Surroundings σ) (p : Path) (w : World σ) : Except IoError Unit × World σ :=
  let (r, files) := around.remove p w.files
  (r, { w with files := files }.note (.removeDirectory p))

def clone (around : Surroundings σ) (url : String) (p : Path) (w : World σ) : Bool × World σ :=
  let (r, files) := around.clone url p w.files
  (r, { w with files := files }.note (.clone url p))

/-- Send a request. -/
def send (around : Surroundings σ) (post : Post) (w : World σ) : Delivery × World σ :=
  let (d, outside) := around.transport.send post w.outside
  (d, { w with outside := outside }.note (.send post))

/-- The transport with its requests noted down. -/
def transport (around : Surroundings σ) : Transport (World σ) :=
  ⟨around.transport.builds, send around⟩

def ensureDirectory (p : Path) (w : World σ) : Except IoError Unit × World σ :=
  match w.files.ensureDirectory p with
  | .ok files => (.ok (), { w with files := files }.note (.makeDirectory p))
  | .error e => (.error e, w.note (.makeDirectory p))

def writeText (p : Path) (s : String) (w : World σ) : Except IoError Unit × World σ :=
  match w.files.writeText p s with
  | .ok files => (.ok (), { w with files := files }.note (.writeFile p))
  | .error e => (.error e, w.note (.writeFile p))

def print (line : String) (w : World σ) : World σ := w.note (.print line)

/-- What was printed. -/
def output (w : World σ) : String :=
  String.join (w.effects.map fun
    | .print line => line ++ "\n"
    | _ => "")

end World

end Triage
