import Downlink.CommandLine.Run

/-!
# The program

Reads the files that the options name and hands them to `CommandLine.run`.
-/

set_option autoImplicit false

namespace Downlink

/-- The text of a file, if it can be read. -/
def readFile? (name : String) : IO (Option String) :=
  try
    return some (← IO.FS.readFile name)
  catch _ =>
    return none

/-- The names of the fields of a document. -/
def fieldNames : Document → List String
  | .record fields => fields.map (·.1)
  | _ => []

/-- The variables of the environment that matter, in either case. -/
def variableNames : List String :=
  let fields := (fieldNames (Config.toDocument {})).map ("BWALLOC__" ++ ·)
  ["BWALLOC_CONFIG", "BWALLOC_LOG_JSON"] ++ fields.map String.toUpper ++ fields.map String.toLower

/-- The variables that are set. -/
def readEnvironment (names : List String) : IO (List (String × String)) := do
  let found ← names.mapM fun name => do return (← IO.getEnv name).map (name, ·)
  return found.filterMap id

/-- The files that the options may mean. -/
def fileNames (options : CommandLine.Options) : List String :=
  let config := options.config.map fun path =>
    path :: (CommandLine.completions path).map (·.1)
  options.scenario :: config.getD []

end Downlink

/-- Runs the command line on the files and the environment of the process. -/
def main (arguments : List String) : IO UInt32 := do
  let environment ← Downlink.readEnvironment Downlink.variableNames
  let options := Downlink.CommandLine.options? arguments environment
  let names := (options.map Downlink.fileNames).getD []
  let texts ← names.mapM fun name => do return (name, ← Downlink.readFile? name)
  let outcome :=
    Downlink.CommandLine.run (fun name => (texts.lookup name).join) environment arguments
  for line in outcome.lines do
    IO.println line
  return outcome.exit.toUInt32
