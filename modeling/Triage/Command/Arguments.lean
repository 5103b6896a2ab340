import Triage.Source

/-!
# The command line

Options may stand before the command and after it, each once in either place; behind the command
they go first. An option that was not given may come from the environment.
-/

namespace Triage

open Files

inductive Command where
  /-- Scan the sources and ask for an assessment. -/
  | scan
  /-- Print the structure of the sources. -/
  | structureReport
  /-- Write a first configuration. -/
  | init (force : Bool)
deriving DecidableEq, Repr, Inhabited

/-- What the program is asked to do. -/
structure Invocation where
  verbose : Bool := false
  config : Option Path := none
  source : SourceArguments := {}
  command : Command := .scan
deriving DecidableEq, Repr, Inhabited

inductive Meaning where
  | run (i : Invocation)
  | version
  /-- Help on the program, or on one of its commands. -/
  | help (command : Option String)
  | misuse
deriving DecidableEq, Repr, Inhabited

/-- The environment variables. -/
abbrev Environment := List (String × String)

inductive ValueOption where
  | config | repoUrl | apiKey | downloadPath | localPath
deriving DecidableEq, Repr, Inhabited

inductive Flag where
  | verbose | keep | force
deriving DecidableEq, Repr, Inhabited

namespace ValueOption

def ofName? : String → Option ValueOption
  | "config" => some config
  | "repo-url" => some repoUrl
  | "api-key" => some apiKey
  | "download-path" => some downloadPath
  | "local" => some localPath
  | _ => none

/-- Whether the value is a path, which cannot be empty. -/
def isPath : ValueOption → Bool
  | config | downloadPath | localPath => true
  | _ => false

/-- The variable that stands in for the option. -/
def environmentName? : ValueOption → Option String
  | repoUrl => some "REPO_URL"
  | apiKey => some "OPENAI_API_KEY"
  | downloadPath => some "DOWNLOAD_PATH"
  | _ => none

def all : List ValueOption := [config, repoUrl, apiKey, downloadPath, localPath]

def accepts (o : ValueOption) (value : String) : Bool := !(o.isPath && value.isEmpty)

def fallback? (o : ValueOption) (e : Environment) : Option String :=
  o.environmentName?.bind fun name => e.lookup name

end ValueOption

/-- The options given in one place. -/
structure Given where
  values : List (ValueOption × String) := []
  flags : List Flag := []
deriving Repr, Inhabited

namespace Given

def value? (g : Given) (o : ValueOption) : Option String := g.values.lookup o

def has (g : Given) (f : Flag) : Bool := g.flags.contains f

/-- One more option with a value, which must not have been given before. -/
def addValue? (g : Given) (o : ValueOption) (value : String) : Option Given :=
  if (g.value? o).isSome || !o.accepts value then none
  else some { g with values := (o, value) :: g.values }

def addFlag? (g : Given) (f : Flag) : Option Given :=
  if g.has f then none else some { g with flags := f :: g.flags }

/-- Whether every variable that stands in for a missing option has a fitting value. -/
def acceptsEnvironment (g : Given) (e : Environment) : Bool :=
  ValueOption.all.all fun o =>
    (g.value? o).isSome || ((o.fallback? e).all (o.accepts ·))

end Given

/-- The place of an argument: in front of the command, or behind it. -/
inductive Position where
  | front
  | behind (command : String)
deriving DecidableEq, Repr, Inhabited

/-- How the arguments in one place end. -/
inductive End where
  | exhausted
  | command (name : String) (rest : List String)
  | version
  | help
  | misuse
deriving DecidableEq, Repr, Inhabited

namespace Arguments

def commandNames : List String := ["scan", "structure", "init", "help"]

def flagOf? (position : Position) (name : String) : Option Flag :=
  match name with
  | "verbose" => some .verbose
  | "keep" => some .keep
  | "force" => if position = .behind "init" then some .force else none
  | _ => none

/-- Whether an argument looks like an option. -/
def isOption (s : String) : Bool := s.startsWith "-" && s != "-"

/-- A long option without its dashes: its name, and the value after an equals sign. -/
def splitLong (s : String) : String × Option String :=
  let cs := s.toList.drop 2
  match cs.dropWhile (· != '=') with
  | [] => (String.ofList cs, none)
  | _ :: value => (String.ofList (cs.takeWhile (· != '=')), some (String.ofList value))

/-- The options of one dash and several letters. -/
def readShort (position : Position) (g : Given) : List Char → Except End Given
  | [] => .ok g
  | 'v' :: cs =>
    match g.addFlag? .verbose with
    | some g => readShort position g cs
    | none => .error .misuse
  | 'h' :: _ => .error .help
  | 'V' :: _ => .error (if position = .front then .version else .misuse)
  | _ => .error .misuse

def readFlag (position : Position) (g : Given) (name : String) : Except End Given :=
  match name with
  | "help" => .error .help
  | "version" => .error (if position = .front then .version else .misuse)
  | _ =>
    match (flagOf? position name).bind g.addFlag? with
    | some g => .ok g
    | none => .error .misuse

/-- The arguments in one place. -/
def read (position : Position) (g : Given) : List String → Given × End
  | [] => (g, .exhausted)
  | a :: rest =>
    if a = "--" then (g, if rest.isEmpty then .exhausted else .misuse)
    else if a.startsWith "--" then
      let (name, attached) := splitLong a
      match ValueOption.ofName? name, attached, rest with
      | some o, some value, rest =>
        match g.addValue? o value with
        | some g => read position g rest
        | none => (g, .misuse)
      | some o, none, value :: rest =>
        match if isOption value then none else g.addValue? o value with
        | some g => read position g rest
        | none => (g, .misuse)
      | some _, none, [] => (g, .misuse)
      | none, some _, _ => (g, .misuse)
      | none, none, rest =>
        match readFlag position g name with
        | .ok g => read position g rest
        | .error e => (g, e)
    else if isOption a then
      match readShort position g (a.toList.drop 1) with
      | .ok g => read position g rest
      | .error e => (g, e)
    else if position = .front ∧ commandNames.contains a then (g, .command a rest)
    else (g, .misuse)

/-- What help is asked for by a command of its own. -/
def helpOn : List String → Meaning
  | [] => .help none
  | [name] => if commandNames.contains name then .help (some name) else .misuse
  | _ => .misuse

def commandOf (name : String) (g : Given) : Command :=
  match name with
  | "structure" => .structureReport
  | "init" => .init (g.has .force)
  | _ => .scan

/-- What the options in both places come to. -/
def invocation (e : Environment) (front behind : Given) (command : Command) : Invocation :=
  let value (o : ValueOption) : Option String :=
    (behind.value? o <|> front.value? o) <|> o.fallback? e
  let has (f : Flag) : Bool := front.has f || behind.has f
  { verbose := has .verbose
    config := (value .config).map .ofString
    source :=
      { repoUrl := value .repoUrl
        apiKey := value .apiKey
        downloadPath := (value .downloadPath).map .ofString
        localPath := (value .localPath).map .ofString
        keep := has .keep }
    command := command }

def meaningBehind (e : Environment) (front : Given) (name : String) (rest : List String) :
    Meaning :=
  match read (.behind name) {} rest with
  | (behind, .exhausted) =>
    if front.acceptsEnvironment e && behind.acceptsEnvironment e then
      .run (invocation e front behind (commandOf name behind))
    else .misuse
  | (_, .help) => .help (some name)
  | _ => .misuse

/-- What a command line means. -/
def meaning (e : Environment) (arguments : List String) : Meaning :=
  match read .front {} arguments with
  | (front, .exhausted) =>
    if front.acceptsEnvironment e then .run (invocation e front {} .scan) else .misuse
  | (_, .command "help" rest) => helpOn rest
  | (front, .command name rest) => meaningBehind e front name rest
  | (_, .version) => .version
  | (_, .help) => .help none
  | (_, .misuse) => .misuse

end Arguments

end Triage
