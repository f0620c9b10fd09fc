import Downlink.CommandLine.Address

/-!
# Options

The options of the command line and how they are given: `--name VALUE`, `--name=VALUE`, `-n VALUE`,
`-nVALUE`.  An option may be given once.  Two options can also be set by environment variables,
which count only where the option is not given.
-/

set_option autoImplicit false

namespace Downlink.CommandLine

/-- What the command line can set. -/
inductive Name where
  | config
  | scenario
  | debugAddress
  | logJson
deriving DecidableEq, Repr

namespace Name

def ofLong? (name : String) : Option Name :=
  if name = "config" then some .config
  else if name = "scenario" then some .scenario
  else if name = "debug-addr" then some .debugAddress
  else if name = "log-json" then some .logJson
  else none

def ofShort? (c : Char) : Option Name :=
  if c = 'c' then some .config else if c = 's' then some .scenario else none

def takesValue (name : Name) : Bool := name != .logJson

/-- The variable that sets the option. -/
def environmentName? : Name → Option String
  | .config => some "BWALLOC_CONFIG"
  | .logJson => some "BWALLOC_LOG_JSON"
  | _ => none

/-- The value is one that the option takes. -/
def accepts : Name → String → Bool
  | .config, value | .scenario, value => !value.isEmpty
  | .debugAddress, value => isSocketAddress value
  | .logJson, value => value = "true" || value = "false"

end Name

/-- The options given, each with its value. -/
abbrev Given := List (Name × String)

/-- An argument that stands for an option rather than a value. -/
def isOption (arg : String) : Bool :=
  match arg.toList with
  | '-' :: _ :: _ => true
  | _ => false

/-- Gives an option its value, unless it has one or does not take this one. -/
def give (given : Given) (name : Name) (value : String) : Option Given :=
  if (given.lookup name).isSome || !name.accepts value then none
  else some (given ++ [(name, value)])

/-- An argument taken apart: an option, with a value attached to it or without. -/
def option? (arg : String) : Option (Name × Option String) :=
  match arg.toList with
  | '-' :: '-' :: rest =>
    let name := rest.takeWhile (· != '=')
    (Name.ofLong? (String.ofList name)).map
      (·, if rest.contains '=' then some (String.ofList (rest.drop (name.length + 1))) else none)
  | '-' :: c :: rest =>
    (Name.ofShort? c).map fun name =>
      match rest with
      | [] => (name, none)
      | '=' :: rest => (name, some (String.ofList rest))
      | rest => (name, some (String.ofList rest))
  | _ => none

/-- Reads the arguments.  Nothing but options is accepted. -/
def readArguments (given : Given) : List String → Option Given
  | [] => some given
  | ["--"] => some given
  | arg :: rest => do
    let (name, attached) ← option? arg
    match name.takesValue, attached with
    | true, some value => readArguments (← give given name value) rest
    | true, none =>
      match rest with
      | value :: rest =>
        if isOption value then none else readArguments (← give given name value) rest
      | [] => none
    | false, none => readArguments (← give given name "true") rest
    | false, some _ => none

/-- Adds what the environment sets and the arguments do not. -/
def readEnvironment (environment : List (String × String)) (given : Given) : List Name →
    Option Given
  | [] => some given
  | name :: rest =>
    match (given.lookup name).isSome, name.environmentName?.bind (environment.lookup ·) with
    | false, some value => do readEnvironment environment (← give given name value) rest
    | _, _ => readEnvironment environment given rest

/-- The options of a run. -/
structure Options where
  config : Option String
  scenario : String
  /-- Where to serve the introspection of the controller. -/
  debugAddress : Option String
  logJson : Bool
deriving DecidableEq

/-- The options that arguments and environment give.  A scenario has to be among them. -/
def options? (arguments : List String) (environment : List (String × String)) : Option Options := do
  let given ← readArguments [] arguments
  let given ← readEnvironment environment given [.config, .logJson]
  some {
    config := given.lookup .config
    scenario := ← given.lookup .scenario
    debugAddress := given.lookup .debugAddress
    logJson := given.lookup .logJson == some "true" }

end Downlink.CommandLine
