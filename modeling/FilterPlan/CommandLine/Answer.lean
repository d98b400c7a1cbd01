import FilterPlan.CommandLine.Invocation
import FilterPlan.Explanation
import FilterPlan.Json.Writer

/-!
# The answer of the program

`answer` is the whole program as a function of its environment, the files and the arguments. `paths` lists
the files that it depends on.
-/

namespace FilterPlan.CommandLine

/-- What the program prints and how it ends. -/
inductive Answer where
  /-- It prints a text and succeeds. -/
  | output (text : Text)
  /-- It fails with a message. -/
  | failure (message : Text)
  /-- It refuses its arguments. -/
  | usage
deriving DecidableEq, Repr

/-- The name of the program and its version. -/
def versionText : Text := "apiquery 0.1.0\n"

/-- How the program is used. -/
def usageText : Text :=
  "Usage: apiquery [OPTIONS] explain <KIND> --schema <PATH> [--user <PATH>] [KEY=VALUE]...\n\n" ++
  "Options:\n" ++
  "  -s, --schema <PATH>               File with the schemas\n" ++
  "  -u, --user <PATH>                 File with the user and the known entities\n" ++
  "  -c, --config <PATH>               File with settings, in place of the local one\n" ++
  "      --default-order <ORDER>       Order of a request that names none\n" ++
  "      --max-limit <N>               Largest accepted limit\n" ++
  "      --verified-seals <N,...>      Seals that @verified stands for\n" ++
  "  -h, --help                        Print help\n" ++
  "  -V, --version                     Print version\n"

/-- The home folder according to the environment. An empty name is none. -/
def Environment.home? (environment : Environment) : Option Text :=
  (environment.get? "HOME").filter (!·.isEmpty)

namespace Invocation

/-- The explanation that the invocation asks for. The settings are loaded before the schemas. -/
def answer (files : Files) (home? : Option Text) (invocation : Invocation) : Answer :=
  match Config.load files home? invocation.overrides with
  | .error e => .failure e.message
  | .ok config =>
    match Explanation.load files config invocation.kind invocation.schemaPath invocation.userPath?
      (Request.ofList invocation.params) with
    | .error e => .failure e.message
    | .ok explanation => .output (explanation.toJson.pretty ++ "\n")

/-- The files that the invocation depends on. -/
def paths (home? : Option Text) (invocation : Invocation) : List Text :=
  let settings :=
    match invocation.overrides.path? with
    | some path => Files.expandHome home? path
    | none => Config.fileName
  (Config.profilePath? home?).toList ++ [settings, invocation.schemaPath] ++ invocation.userPath?.toList

end Invocation

/-- The answer to the arguments. -/
def answer (environment : Environment) (files : Files) (args : List Text) : Answer :=
  let environment := environment.withFile files
  match Invocation.ofTexts environment args with
  | .error .version => .output versionText
  | .error .help => .output usageText
  | .error .usage => .usage
  | .ok invocation => invocation.answer files environment.home?

/-- The files that the answer depends on beside the environment file, whose content is among `files`. -/
def paths (environment : Environment) (files : Files) (args : List Text) : List Text :=
  let environment := environment.withFile files
  match Invocation.ofTexts environment args with
  | .error _ => []
  | .ok invocation => invocation.paths environment.home?

end FilterPlan.CommandLine
