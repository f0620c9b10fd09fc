import Downlink.CommandLine.Options
import Downlink.Config.Loading
import Downlink.Scenario.Loading

/-!
# The command line

Replays a scenario and writes every record as a line of JSON.

The exit code tells what became of it: 0 for a replay, 1 if the configuration or the scenario cannot
be loaded or replayed, 2 if the arguments are wrong.  Files are looked up by a function, so a run is
a value.
-/

set_option autoImplicit false

namespace Downlink.CommandLine

/-- What a run writes, and its exit code. -/
structure Outcome where
  exit : UInt8
  lines : List String
deriving DecidableEq

/-- The text of a file, if there is one of that name. -/
abbrev Files := String → Option String

/-- The endings of configuration files, in the order in which they are tried. -/
def endings : List (String × DocumentFormat) := [(".toml", .toml), (".json", .json)]

/-- The last part of a path has this ending, and is more than the ending. -/
def hasEnding (ending path : String) : Bool :=
  let ending := ending.toList.reverse
  let cs := path.toList.reverse
  ending.isPrefixOf cs && (cs.drop ending.length).head?.any (· != '/')

/-- A path with an ending behind its last part, if that part is a name. -/
def withEnding? (ending path : String) : Option String :=
  match (path.splitOn "/").reverse.dropWhile fun part => part == "" || part == "." with
  | [] => none
  | name :: above =>
    if name = ".." then none else some ("/".intercalate ((name ++ ending) :: above).reverse)

/-- The paths at which a configuration may lie whose ending was left out. -/
def completions (path : String) : List (String × DocumentFormat) :=
  endings.filterMap fun (ending, format) => (withEnding? ending path).map (·, format)

/-- The file of a configuration; its ending may be left out. -/
def configFile (files : Files) : Option String → Config.File
  | none => .unset
  | some path =>
    match files path with
    | some text =>
      (endings.find? fun (ending, _) => hasEnding ending path).elim .missing
        fun (_, format) => .content format text
    | none =>
      ((completions path).findSome? fun (path, format) =>
        (files path).map (Config.File.content format)).getD .missing

/-- The records of a scenario as lines. -/
def replayLines (files : Files) (environment : List (String × String)) (options : Options) :
    Option (List String) := do
  let config ← (Config.load (configFile files options.config) environment).toOption
  let scenario ← (Scenario.load (files options.scenario)).toOption
  let replay ← (scenario.replay config).toOption
  some (replay.records.map (·.toDocument.json))

/-- A run of the command line. -/
def run (files : Files) (environment : List (String × String)) (arguments : List String) :
    Outcome :=
  match options? arguments environment with
  | none => ⟨2, []⟩
  | some options => (replayLines files environment options).elim ⟨1, []⟩ (⟨0, ·⟩)

end Downlink.CommandLine
