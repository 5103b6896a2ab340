import Triage.Command.Arguments

/-!
# Help

The help of the program and of its commands, and its version.
-/

namespace Triage

/-- An entry with its explanation on a line of its own. -/
def helpEntry (names explanation : String) : String :=
  "  " ++ names ++ "\n          " ++ explanation ++ "\n"

def currentValue (e : Environment) (name : String) : String :=
  "[env: " ++ name ++ "=" ++ (e.lookup name).getD "" ++ "]"

/-- The options that every command has. -/
def commonOptions (e : Environment) : String :=
  String.join
    [helpEntry "-v, --verbose" "Enable verbose logging",
      helpEntry "    --config <CONFIG>"
        "Path to .vigil directory or config file (default: search for .vigil/config.toml)",
      helpEntry "    --repo-url <REPO_URL>"
        ("URL of the repository to analyze " ++ currentValue e "REPO_URL"),
      helpEntry "    --api-key <API_KEY>" "OpenAI API key [env: OPENAI_API_KEY]",
      helpEntry "    --download-path <DOWNLOAD_PATH>"
        ("Directory the repository is cloned into [default: ./cloned_repo] " ++
          currentValue e "DOWNLOAD_PATH"),
      helpEntry "    --local <LOCAL>"
        "Analyze an existing directory instead of cloning (overrides --repo-url)",
      helpEntry "    --keep" "Keep the cloned repository after the run",
      helpEntry "-h, --help" "Print help"]

/-- What a command is for. -/
def commandAbout (name : String) : String :=
  match name with
  | "scan" => "Clone, extract, write the report and request an assessment (default)"
  | "structure" => "Print dependencies, calls and routes per file as JSON (no LLM call)"
  | "init" => "Initialize a new .vigil directory with config file"
  | _ => "Print this message or the help of the given subcommand(s)"

/-- The names of the commands, all of one width. -/
def commandColumn : List (String × String) :=
  [("scan", "  scan       "), ("structure", "  structure  "), ("init", "  init       "),
    ("help", "  help       ")]

def programHelp (e : Environment) : String :=
  "Static security triage for Python repositories\n\nUsage: vigil [OPTIONS] [COMMAND]\n\n" ++
    "Commands:\n" ++
    String.join (commandColumn.map fun (name, column) => column ++ commandAbout name ++ "\n") ++
    "\nOptions:\n" ++ commonOptions e ++ helpEntry "-V, --version" "Print version"

def commandHelp (e : Environment) (name : String) : String :=
  let usage (rest : String) :=
    commandAbout name ++ "\n\nUsage: vigil " ++ name ++ " " ++ rest ++ "\n\n"
  match name with
  | "help" =>
    usage "[COMMAND]..." ++ "Arguments:\n  [COMMAND]...  Print help for the subcommand(s)\n"
  | "init" =>
    usage "[OPTIONS]" ++ "Options:\n" ++
      helpEntry "    --force" "Force overwrite existing config" ++
      commonOptions e
  | _ => usage "[OPTIONS]" ++ "Options:\n" ++ commonOptions e

/-- The help that was asked for. -/
def helpText (e : Environment) (command : Option String) : String :=
  match command with
  | some name => commandHelp e name
  | none => programHelp e

def versionText : String := "vigil 0.0.1\n"

end Triage
