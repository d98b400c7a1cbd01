import FilterPlan.CommandLine.Answer

/-!
# The program

Everything that the program does is in `FilterPlan.CommandLine.answer`; here the environment and the files are
read and the answer is printed.
-/

namespace FilterPlan.CommandLine

/-- The variables that the program looks at, those included that the environment file mentions. -/
def variableNames (files : Files) : List Text :=
  let mentioned := ((files.text? EnvironmentFile.path).map EnvironmentFile.mentions).getD []
  "HOME" :: (OptionName.all.filterMap OptionName.variableName? ++ mentioned)

/-- Reads a variable of the process. -/
def readVariable (name : Text) : IO (Option (Text × Text)) := do
  let value? ← IO.getEnv (String.ofList name)
  return value?.map fun value => (name, value.toList)

/-- Reads what stands at a path. -/
def readEntry (path : Text) : IO (Option (Text × Files.Entry)) := do
  try
    let bytes ← IO.FS.readBinFile (String.ofList path)
    match String.fromUTF8? bytes with
    | some text => return some (path, .file text.toList)
    | none => return some (path, .folder)
  catch
    | .noFileOrDirectory .. => return none
    | _ => return some (path, .folder)

/-- Reads what stands at the paths. -/
def readFiles (paths : List Text) : IO Files := do
  return .ofEntries ((← paths.mapM readEntry).filterMap id)

/-- Prints the answer; the exit code is 0 for success, 1 for failure and 2 for refused arguments. -/
def Answer.print : Answer → IO UInt32
  | .output text => do
    IO.print (String.ofList text)
    return 0
  | .failure message => do
    IO.eprintln ("\nError: " ++ String.ofList message ++ "\n")
    return 1
  | .usage => do
    IO.eprint (String.ofList usageText)
    return 2

end FilterPlan.CommandLine

open FilterPlan.CommandLine in
/-- Reads the environment and the files, and prints the answer to the arguments. -/
def main (args : List String) : IO UInt32 := do
  let files ← readFiles [EnvironmentFile.path]
  let environment := (← (variableNames files).mapM readVariable).filterMap id
  let args := args.map String.toList
  let files ← readFiles (EnvironmentFile.path :: paths environment files args)
  (answer environment files args).print
