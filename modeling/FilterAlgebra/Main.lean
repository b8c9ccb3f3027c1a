import FilterAlgebra.CommandLine.Run

/-!
# The command line program

Reads what surrounds a command, runs it and prints what it gives.
-/

namespace FilterAlgebra

/-- The content of a file, if it can be read. -/
def readFile? (name : Text) : IO (Option Text) :=
  try
    return some (← IO.FS.readFile (String.ofList name)).toList
  catch _ =>
    return none

def readEnvironment : IO Environment := do
  let languages ← IO.getEnv "IMPRESSO_FILTER_LANGUAGES"
  let universalQuery ← IO.getEnv "IMPRESSO_FILTER_UNIVERSAL_QUERY"
  return {
    languages := languages.map String.toList
    universalQuery := universalQuery.map String.toList }

def readSurroundings (command : Command) : IO Surroundings := do
  let files ← command.fileNames.mapM fun name => return (name, ← readFile? name)
  let incoming ←
    if command.inputs.contains ['-'] then
      (← IO.getStdin).readToEnd
    else pure ""
  return {
    file := fun name => (files.lookup name).join
    incoming := incoming.toList
    environment := ← readEnvironment }

end FilterAlgebra

open FilterAlgebra in
/-- Runs the command that the arguments make. -/
def main (args : List String) : IO UInt32 := do
  match Command.parse? (args.map String.toList) with
  | none =>
    IO.eprintln (String.ofList CommandError.usage.message)
    return 2
  | some command =>
    let (answer, _) := (command.run (← readSurroundings command)).run {}
    match answer with
    | .ok output =>
      IO.println (String.ofList output)
      return 0
    | .error error =>
      IO.eprintln (String.ofList ("Error: " ++ error.message))
      return 1
