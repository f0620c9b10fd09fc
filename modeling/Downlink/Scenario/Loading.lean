import Downlink.Scenario.Document
import Downlink.Toml.Reader

/-!
# Loading a scenario
-/

set_option autoImplicit false

namespace Downlink.Scenario

/-- Why no scenario was loaded. -/
inductive LoadError where
  /-- There is no such file. -/
  | missing
  /-- The text is not the TOML of a scenario. -/
  | malformed
deriving DecidableEq

/-- The scenario of a TOML 1.0 text. -/
def ofToml? (text : String) : Option Scenario :=
  (Document.ofToml? .version10 text).bind (ofDocument? .toml)

/-- The scenario in a file, given the file's text if there is a file. -/
def load (file : Option String) : Except LoadError Scenario := do
  let text ← file.elim (.error .missing) .ok
  (ofToml? text).elim (.error .malformed) .ok

end Downlink.Scenario
